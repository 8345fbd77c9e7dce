import SqlQuery.Proofs.Sql.ColumnList

/-!
# Reading the columns that are set

What a statement sets stands before an equals sign: in an update between SET and WHERE, in an
insertion behind what it does on a conflict. A reader that stops at WHERE finds these columns and
nothing else, since no other symbol there is written with an equals sign and no name can be taken
for one.

> `read_assignments`: what is read from a list of assignments is read from one after the other.

> `assignedColumns_tokens`: the columns that are read as set are those that the statement sets.
-/

namespace SqlQuery.Sql

open Lexeme

/-- What a statement sets, of rows that are there. -/
def Statement.assignments : Statement → List Assignment
  | .insert _ _ _ (some c) _ => c.assignments
  | .update _ assignments _ _ => assignments
  | _ => []

/-- What stands before an equals sign. -/
def Lexeme.targets : List Lexeme → List Lexeme
  | [] => []
  | l :: rest => if rest.head? = some (.mark '=') then l :: targets rest else targets rest

/-- The columns that an insertion or an update sets, as they are read from its lexemes. -/
def assignedColumns (ls : List Lexeme) : List String :=
  if ls.head? = some Keyword.insert.lexeme ∨ ls.head? = some Keyword.update.lexeme then
    (targets (ls.takeWhile (· ≠ Keyword.where_.lexeme))).filterMap name?
  else []

/-! ## What sets nothing -/

/-- No symbol of a fragment is written with an equals sign. -/
def SetsNothing {α : Type} (f : Fragment α) : Prop :=
  ∀ s, Token.symbol s ∈ f → '=' ∉ s.text.toList

section

variable {α : Type} {f g : Fragment α}

/-- Two fragments in a row set nothing if neither does. -/
theorem SetsNothing.append (hf : SetsNothing f) (hg : SetsNothing g) : SetsNothing (f ++ g) := by
  intro s hs
  rcases List.mem_append.mp hs with hs | hs
  · exact hf s hs
  · exact hg s hs

/-- A fragment sets nothing where its only symbols are commas, parentheses and dots. -/
theorem setsNothing_of_symbols
    (h : ∀ s, Token.symbol s ∈ f → s ∈ [Symbol.comma, .group, .close, .arguments, .dot]) :
    SetsNothing f := by
  intro s hs
  have hsymbol := h s hs
  revert hsymbol
  cases s <;> decide

/-- No equals sign is read from what sets nothing. -/
theorem SetsNothing.mark_not_mem (hf : SetsNothing f) (d : Dialect) (bound : Nat) :
    Lexeme.mark '=' ∉ lexemesOf d bound f :=
  Sql.mark_not_mem d (by decide) hf bound

end

/-- A lexeme that is not in a list, nor first behind it, is not first in both together. -/
theorem head?_append_ne {l : Lexeme} {ls rest : List Lexeme} (hls : l ∉ ls)
    (hrest : rest.head? ≠ some l) : (ls ++ rest).head? ≠ some l := by
  cases ls with
  | nil => exact hrest
  | cons l' ls =>
    intro he
    exact hls (Option.some.inj he ▸ List.mem_cons_self ..)

/-- What sets nothing is passed over. -/
theorem targets_append {ls rest : List Lexeme} (hls : Lexeme.mark '=' ∉ ls)
    (hrest : rest.head? ≠ some (.mark '=')) : targets (ls ++ rest) = targets rest := by
  induction ls with
  | nil => rfl
  | cons l ls ih =>
    have htail : Lexeme.mark '=' ∉ ls := fun hmem => hls (List.mem_cons_of_mem _ hmem)
    rw [List.cons_append, targets, if_neg (head?_append_ne htail hrest)]
    exact ih htail

/-- Without an equals sign nothing is read as set. -/
theorem targets_of_not_mem {ls : List Lexeme} (h : Lexeme.mark '=' ∉ ls) : targets ls = [] := by
  have hnil : targets (ls ++ []) = targets [] := targets_append h (by simp)
  rwa [List.append_nil] at hnil

/-! ## Assignments -/

/-- The source of an assignment, behind the equals sign. -/
def Assignment.sourceTokens (d : Dialect) (a : Assignment) : Fragment Value :=
  match a.source with
  | .value v => [.slot v]
  | .null => [.word .null]
  | .proposed => d.proposed [.name a.column]

/-- What a column is set to holds no equals sign. -/
theorem setsNothing_source (d : Dialect) (a : Assignment) : SetsNothing (a.sourceTokens d) := by
  refine setsNothing_of_symbols ?_
  intro s hs
  unfold Assignment.sourceTokens at hs
  cases hsource : a.source with
  | value v | null =>
    rw [hsource] at hs
    exact absurd hs (by simp)
  | proposed =>
    rw [hsource] at hs
    cases d with
    | mysql =>
      have hs : s = .arguments ∨ s = .close := by simpa [Dialect.proposed, call, commas] using hs
      rcases hs with rfl | rfl <;> simp
    | postgres | sqlite =>
      have hs : s = .dot := by simpa [Dialect.proposed] using hs
      simp [hs]

/-- An assignment is read as its column, the equals sign and its source. -/
theorem lexemesOf_assignment (d : Dialect) (bound : Nat) (a : Assignment) :
    lexemesOf d bound (a.tokens d)
      = .ofName a.column.toList :: .mark '=' :: lexemesOf d bound (a.sourceTokens d) :=
  rfl

/-- No name is read as a symbol, but for the star. -/
theorem ofName_ne_mark {name : List Char} {c : Char} (hc : c ≠ '*') :
    Lexeme.ofName name ≠ .mark c := by
  unfold Lexeme.ofName
  split
  · intro he
    exact hc (Lexeme.mark.inj he).symm
  · split <;> simp

/-- What can follow an assignment: a comma, or no mark at all. -/
def EndsAssignment (rest : List Lexeme) : Prop :=
  ∀ c, rest.head? = some (.mark c) → c = ','

/-- Of an assignment its column is read, and nothing else. -/
theorem targets_assignment (d : Dialect) (bound : Nat) (a : Assignment) {rest : List Lexeme}
    (hrest : EndsAssignment rest) :
    targets (lexemesOf d bound (a.tokens d) ++ rest)
      = [Lexeme.ofName a.column.toList] ++ targets rest := by
  have hsource := (setsNothing_source d a).mark_not_mem d bound
  have hnext : rest.head? ≠ some (.mark '=') := fun he => absurd (hrest '=' he) (by decide)
  rw [lexemesOf_assignment, List.cons_append, List.cons_append, targets, if_pos (by rfl), targets,
    if_neg (head?_append_ne hsource hnext), targets_append hsource hnext]
  rfl

/-- What is read from a list of assignments one by one is read from each of them. -/
theorem read_assignments (d : Dialect) {read : List Lexeme → List Lexeme}
    {own : Assignment → List Lexeme}
    (hread : ∀ bound a rest, EndsAssignment rest →
      read (lexemesOf d bound (a.tokens d) ++ rest) = own a ++ read rest)
    (hskip : ∀ n more, read (.mark ',' :: .ofName n :: more) = read (.ofName n :: more))
    {rest : List Lexeme} (hrest : EndsAssignment rest) (bound : Nat) (as : List Assignment) :
    read (lexemesOf d bound (assignmentList d as) ++ rest) = as.flatMap own ++ read rest := by
  induction as generalizing bound with
  | nil => rfl
  | cons a as ih =>
    cases as with
    | nil =>
      have hone : assignmentList d [a] = a.tokens d := by simp [assignmentList, commas]
      rw [hone, hread bound a rest hrest, List.flatMap_cons, List.flatMap_nil, List.append_nil]
    | cons b as =>
      have hcomma : ∀ more, EndsAssignment (.mark ',' :: more) := by
        intro more c he
        exact (Lexeme.mark.inj (Option.some.inj he)).symm
      have hsplit : lexemesOf d bound (assignmentList d (a :: b :: as))
          = lexemesOf d bound (a.tokens d) ++ .mark ','
            :: lexemesOf d (bound + (slots (a.tokens d)).length) (assignmentList d (b :: as)) :=
        lexemesOf_commas_cons ..
      -- the next assignment begins with a name
      obtain ⟨more, hmore⟩ : ∃ more, lexemesOf d (bound + (slots (a.tokens d)).length)
          (assignmentList d (b :: as)) = .ofName b.column.toList :: more := by
        cases as <;> exact ⟨_, rfl⟩
      rw [hsplit, List.append_assoc, List.cons_append, hread bound a _ (hcomma _),
        List.flatMap_cons, List.append_assoc, ← ih (bound + (slots (a.tokens d)).length), hmore,
        List.cons_append, hskip]

/-- A list of assignments starts with a column, if not with what follows it. -/
theorem head?_assignmentList (d : Dialect) (bound : Nat) (as : List Assignment) {c : Char}
    (hc : c ≠ '*') {rest : List Lexeme} (hrest : rest.head? ≠ some (.mark c)) :
    (lexemesOf d bound (assignmentList d as) ++ rest).head? ≠ some (.mark c) := by
  cases as with
  | nil => exact hrest
  | cons a as =>
    obtain ⟨more, hmore⟩ : ∃ more, lexemesOf d bound (assignmentList d (a :: as))
        = .ofName a.column.toList :: more := by
      cases as <;> exact ⟨_, rfl⟩
    rw [hmore]
    exact fun he => ofName_ne_mark hc (Option.some.inj he)

/-! ## What stands around a list -/

section

variable {α : Type} {k : Keyword} (hk : k.Reserved) (d : Dialect) (bound : Nat) {f : Fragment α}
  (hf : Token.word k ∉ f)

include hk hf

/-- A reader that stops at a keyword goes through all that is written without it. -/
theorem takeWhile_lexemesOf :
    (lexemesOf d bound f).takeWhile (· ≠ k.lexeme) = lexemesOf d bound f :=
  takeWhile_ne_self (not_mem_lexemesOf hk d bound hf)

/-- A reader that stops at a word reads what is before it, if the word is not in there. -/
theorem takeWhile_lexemesOf_append (g : Fragment α) :
    (lexemesOf d bound (f ++ .word k :: g)).takeWhile (· ≠ k.lexeme) = lexemesOf d bound f := by
  rw [lexemesOf_append]
  exact takeWhile_ne_append (not_mem_lexemesOf hk d bound hf) _

end

/-- A request for the written rows can stand behind assignments. -/
theorem endsAssignment_returning {α : Type} (d : Dialect) (bound : Nat) (returning : Bool) :
    EndsAssignment (lexemesOf d bound (returningTokens (α := α) d returning)) := by
  intro c he
  unfold returningTokens at he
  split at he
  · exact absurd he (by simp [lexemesOf, number, Token.lexemes])
  · exact absurd he (by simp [lexemesOf, number])

/-! ## What an insertion does on a conflict -/

/-- What stands before the assignments of an insertion that may meet a row. -/
def insertionLead (d : Dialect) (table : String) (columns : List String)
    (rows : List (List Value)) (c : Conflict) : Fragment Value :=
  insertInto table columns ++ .word .values :: commas (rows.map fun r => grouped (slotList r))
    ++ d.onConflict (nameList c.keys) []

/-- The assignments stand last in what is done on a conflict, in every dialect. -/
theorem onConflict_eq {α : Type} (d : Dialect) (keys assignments : Fragment α) :
    d.onConflict keys assignments = d.onConflict keys [] ++ assignments := by
  cases d <;> simp [Dialect.onConflict]

/-- An insertion with a conflict: what leads to the assignments, these, and what follows. -/
theorem tokens_onConflict (d : Dialect) (table : String) (columns : List String)
    (rows : List (List Value)) (c : Conflict) (returning : Bool) :
    (Statement.insert table columns rows (some c) returning).tokens d
      = insertionLead d table columns rows c ++ assignmentList d c.assignments
        ++ returningTokens d returning := by
  unfold Statement.tokens insertionLead
  dsimp only
  unfold Conflict.tokens
  rw [onConflict_eq]
  simp only [List.append_assoc]

theorem setsNothing_grouped_names {α : Type} (names : List String) :
    SetsNothing (grouped (nameList (α := α) names)) := by
  refine setsNothing_of_symbols ?_
  intro s hs
  simp only [grouped, List.cons_append, List.mem_cons, Token.symbol.injEq, List.mem_append,
    List.not_mem_nil, or_false] at hs
  rcases hs with rfl | hs | rfl
  · simp
  · simp [symbol_mem_nameList hs]
  · simp

theorem setsNothing_of_no_symbol {α : Type} {f : Fragment α} (h : ∀ s, Token.symbol s ∉ f) :
    SetsNothing f :=
  fun s hs => absurd hs (h s)

/-- Table and columns of an insertion set nothing. -/
theorem setsNothing_insertInto {α : Type} (table : String) (columns : List String) :
    SetsNothing (insertInto (α := α) table columns) :=
  (setsNothing_of_no_symbol (by simp)).append (setsNothing_grouped_names columns)

theorem setsNothing_groups (rows : List (List Value)) :
    SetsNothing (.word .values :: commas (rows.map fun r => grouped (slotList r))) := by
  refine setsNothing_of_symbols ?_
  intro s hs
  rcases symbol_mem_groups (List.mem_of_ne_of_mem (by simp) hs) with rfl | rfl | rfl <;> simp

/-- What leads from the keys to the assignments sets nothing. -/
theorem setsNothing_onConflict (d : Dialect) (keys : List String) :
    SetsNothing (d.onConflict (nameList (α := Value) keys) []) := by
  have hpostgres : SetsNothing ([Token.word .on, .word .conflict] ++ grouped (nameList keys)
      ++ [Token.word .do_, .word .update, .word .set] ++ [] : Fragment Value) :=
    (((setsNothing_of_no_symbol (by simp)).append (setsNothing_grouped_names keys)).append
      (setsNothing_of_no_symbol (by simp))).append (setsNothing_of_no_symbol (by simp))
  cases d with
  | mysql => exact setsNothing_of_no_symbol (by simp [Dialect.onConflict])
  | postgres | sqlite => exact hpostgres

/-- All that stands before the assignments of an insertion sets nothing. -/
theorem setsNothing_lead (d : Dialect) (table : String) (columns : List String)
    (rows : List (List Value)) (c : Conflict) :
    SetsNothing (insertionLead d table columns rows c) :=
  ((setsNothing_insertInto table columns).append (setsNothing_groups rows)).append
    (setsNothing_onConflict d c.keys)

theorem word_not_mem_names {α : Type} (k : Keyword) (names : List String) :
    Token.word k ∉ nameList (α := α) names := by
  refine not_mem_commas ?_
  intro f hf
  obtain ⟨n, -, rfl⟩ := List.mem_map.mp hf
  simp

/-- The rows of an insertion stand behind INSERT, INTO and VALUES, and behind no other word. -/
theorem word_not_mem_rows {k : Keyword} (hk : k ∉ [Keyword.insert, .into, .values])
    (table : String) (columns : List String) (rows : List (List Value)) :
    Token.word k ∉ insertInto table columns
      ++ .word .values :: commas (rows.map fun r => grouped (slotList r)) := by
  have hnames := word_not_mem_names (α := Value) k columns
  have hrows : Token.word k ∉ commas (rows.map fun r => grouped (slotList r)) := by
    refine not_mem_commas ?_
    intro f hf
    obtain ⟨row, -, rfl⟩ := List.mem_map.mp hf
    simp [grouped, not_mem_slotList]
  rw [List.mem_append, List.mem_cons]
  rintro (h | h | h)
  · have h : k = .insert ∨ k = .into := by simpa [insertInto, grouped, hnames] using h
    exact hk (by rcases h with rfl | rfl <;> simp)
  · exact hk (by simp [Token.word.inj h])
  · exact hrows h

/-- An insertion that becomes an update has no condition before its assignments. -/
theorem where_not_mem_lead (d : Dialect) (table : String) (columns : List String)
    (rows : List (List Value)) (c : Conflict) :
    Token.word .where_ ∉ insertionLead d table columns rows c := by
  have hconflict : Token.word .where_ ∉ d.onConflict (nameList (α := Value) c.keys) [] := by
    cases d <;> simp [Dialect.onConflict, grouped, word_not_mem_names]
  rw [insertionLead, List.mem_append, not_or]
  exact ⟨word_not_mem_rows (by decide) table columns rows, hconflict⟩

/-! ## Columns that are set -/

/-- Between fragments that set nothing, what is read as set are the columns of the assignments. -/
theorem targets_between (d : Dialect) {before after : Fragment Value} (hbefore : SetsNothing before)
    (hafter : SetsNothing after) (hends : ∀ bound, EndsAssignment (lexemesOf d bound after))
    (as : List Assignment) :
    (targets (lexemesOf d 0 (before ++ assignmentList d as ++ after))).filterMap name?
      = as.map (·.column) := by
  have hskip (n : List Char) (more : List Lexeme) :
      targets (.mark ',' :: .ofName n :: more) = targets (.ofName n :: more) := by
    have hne : (Lexeme.ofName n :: more).head? ≠ some (.mark '=') :=
      fun he => ofName_ne_mark (by decide) (Option.some.inj he)
    rw [targets, if_neg hne]
  have hnext : ∀ bound, (lexemesOf d bound after).head? ≠ some (.mark '=') :=
    fun bound he => absurd (hends bound '=' he) (by decide)
  rw [List.append_assoc, lexemesOf_append, lexemesOf_append,
    targets_append (hbefore.mark_not_mem d 0) (head?_assignmentList d _ as (by decide) (hnext _)),
    read_assignments d (fun bound a _ => targets_assignment d bound a) hskip (hends _),
    targets_of_not_mem (hafter.mark_not_mem d _), List.append_nil, List.filterMap_flatMap,
    List.map_eq_flatMap]
  exact List.flatMap_congr fun a _ => List.filterMap_cons_some (name?_ofName a.column)

theorem setsNothing_returning {α : Type} (d : Dialect) (returning : Bool) :
    SetsNothing (returningTokens (α := α) d returning) := by
  unfold returningTokens
  split <;> exact setsNothing_of_no_symbol (by simp)

/-- Asking for the written rows is no condition. -/
theorem where_not_mem_returning {α : Type} (d : Dialect) (returning : Bool) :
    Token.word .where_ ∉ returningTokens (α := α) d returning := by
  unfold returningTokens
  split <;> simp

/-- In insertions and updates the reader looks at what stands before WHERE. -/
theorem assignedColumns_of_head {d : Dialect} {f : Fragment Value} {k : Keyword}
    {more : List Lexeme} (hhead : lexemesOf d 0 f = k.lexeme :: more)
    (hk : k = .insert ∨ k = .update) :
    assignedColumns (lexemesOf d 0 f)
      = (targets ((lexemesOf d 0 f).takeWhile (· ≠ Keyword.where_.lexeme))).filterMap name? := by
  refine if_pos ?_
  rw [hhead]
  rcases hk with rfl | rfl <;> simp

/-- Nothing is read as set where nothing is done on a conflict. -/
theorem assignedColumns_insert (d : Dialect) (table : String) (columns : List String)
    (rows : List (List Value)) (returning : Bool) :
    assignedColumns (lexemesOf d 0
      ((Statement.insert table columns rows none returning).tokens d)) = [] := by
  have htokens : (Statement.insert table columns rows none returning).tokens d
      = (insertInto table columns ++ .word .values
        :: commas (rows.map fun r => grouped (slotList r))) ++ returningTokens d returning := by
    unfold Statement.tokens
    dsimp only
    rw [List.append_nil]
  have hwhere : Token.word .where_ ∉ (insertInto table columns ++ .word .values
      :: commas (rows.map fun r => grouped (slotList r))) ++ returningTokens d returning := by
    rw [List.mem_append, not_or]
    exact ⟨word_not_mem_rows (by decide) table columns rows, where_not_mem_returning d returning⟩
  have hnothing := ((setsNothing_insertInto table columns).append
    (setsNothing_groups rows)).append (setsNothing_returning d returning)
  rw [htokens, assignedColumns_of_head (k := .insert) rfl (Or.inl rfl),
    takeWhile_lexemesOf Keyword.reserved_where d 0 hwhere,
    targets_of_not_mem (hnothing.mark_not_mem d 0)]
  rfl

/-- What an insertion sets on a conflict is read from its text. -/
theorem assignedColumns_onConflict (d : Dialect) (table : String) (columns : List String)
    (rows : List (List Value)) (c : Conflict) (returning : Bool) :
    assignedColumns (lexemesOf d 0
      ((Statement.insert table columns rows (some c) returning).tokens d))
        = c.assignments.map (·.column) := by
  have hwhere : Token.word .where_ ∉ insertionLead d table columns rows c
      ++ assignmentList d c.assignments ++ returningTokens d returning := by
    simp [where_not_mem_lead, not_mem_assignmentList, where_not_mem_returning]
  rw [tokens_onConflict, assignedColumns_of_head (k := .insert) rfl (Or.inl rfl),
    takeWhile_lexemesOf Keyword.reserved_where d 0 hwhere]
  exact targets_between d (setsNothing_lead d table columns rows c)
    (setsNothing_returning d returning)
    (fun bound => endsAssignment_returning d bound returning) c.assignments

/-- A guarded insertion sets no rows that are there. -/
theorem assignedColumns_insertUnless (d : Dialect) (table : String) (columns : List String)
    (row : List Value) (present : Predicate) :
    assignedColumns (lexemesOf d 0
      ((Statement.insertUnless table columns row present).tokens d)) = [] := by
  have hslots : SetsNothing (.word .select :: slotList row ++ d.dual) := by
    refine setsNothing_of_symbols ?_
    intro s hs
    have hcomma : s = .comma := by
      rcases List.mem_append.mp hs with hs | hs
      · exact symbol_mem_slotList (List.mem_of_ne_of_mem (by simp) hs)
      · cases d <;> simp [Dialect.dual] at hs
    simp [hcomma]
  have hnothing : SetsNothing
      (insertInto table columns ++ .word .select :: slotList row ++ d.dual) := by
    rw [List.append_assoc]
    exact (setsNothing_insertInto table columns).append hslots
  have hwhere : Token.word .where_ ∉
      insertInto table columns ++ .word .select :: slotList row ++ d.dual := by
    have hdual : Token.word .where_ ∉ d.dual (α := Value) := by cases d <;> simp [Dialect.dual]
    simp [not_mem_insertInto, not_mem_slotList, hdual]
  rw [Statement.tokens, assignedColumns_of_head (k := .insert) rfl (Or.inl rfl),
    takeWhile_lexemesOf_append Keyword.reserved_where d 0 hwhere,
    targets_of_not_mem (hnothing.mark_not_mem d 0)]
  rfl

theorem assignedColumns_update (d : Dialect) (table : String) (assignments : List Assignment)
    (p : Predicate) (returning : Bool) :
    assignedColumns (lexemesOf d 0
      ((Statement.update table assignments p returning).tokens d))
        = assignments.map (·.column) := by
  have htokens : (Statement.update table assignments p returning).tokens d
      = ([Token.word .update, .name table, .word .set] ++ assignmentList d assignments)
        ++ Token.word .where_ :: (p.tokens d ++ returningTokens d returning) := by
    simp [Statement.tokens]
  have hwhere : Token.word .where_ ∉
      ([Token.word .update, .name table, .word .set] ++ assignmentList d assignments
        : Fragment Value) := by
    simp [not_mem_assignmentList]
  have hlead : SetsNothing ([Token.word .update, .name table, .word .set] : Fragment Value) :=
    setsNothing_of_no_symbol (by simp)
  have hnothing : SetsNothing ([] : Fragment Value) := setsNothing_of_no_symbol (by simp)
  have hsets := targets_between d hlead hnothing
    (fun bound c he => absurd he (by simp [lexemesOf, number])) assignments
  rw [List.append_nil] at hsets
  rw [htokens, assignedColumns_of_head (k := .update) rfl (Or.inr rfl),
    takeWhile_lexemesOf_append Keyword.reserved_where d 0 hwhere]
  exact hsets

/-- The columns that are read as set are those that an insertion or an update sets. -/
theorem assignedColumns_tokens (d : Dialect) (s : Statement) :
    assignedColumns (lexemesOf d 0 (s.tokens d)) = s.assignments.map (·.column) := by
  cases s with
  | select s =>
    obtain ⟨more, hmore⟩ := lexemesOf_select d s
    rw [Statement.tokens, hmore]
    exact if_neg (by simp [Keyword.lexeme, Keyword.text])
  | insert table columns rows conflict returning =>
    cases conflict with
    | none => exact assignedColumns_insert d table columns rows returning
    | some c => exact assignedColumns_onConflict d table columns rows c returning
  | insertUnless table columns row present =>
    exact assignedColumns_insertUnless d table columns row present
  | update table assignments p returning =>
    exact assignedColumns_update d table assignments p returning
  | delete table p returning =>
    rw [Statement.tokens, List.append_assoc]
    exact if_neg (by simp [Keyword.lexeme, Keyword.text, lexemesOf, number, Token.lexemes])

end SqlQuery.Sql
