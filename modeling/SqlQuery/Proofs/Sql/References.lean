import SqlQuery.Proofs.Sql.Parentheses

/-!
# The columns that a selection refers to

`references` reads a selection token by token and keeps what refers to a column: every name
but those of tables and those that are given away by AS, with the name before its dot. What
a fragment refers to does not hang on where it stands, so long as no dot follows it; each
construct refers to what its parts do.

> `Predicate.references_tokens`: a predicate refers to the columns of its atoms.

> `Select.references_tokens`: a selection refers to the columns of its clauses, and to no
> others.
-/

namespace SqlQuery.Sql

variable {α : Type}

/-- The columns that a selection refers to, each with the name before its dot. -/
def references : Fragment α → List ColumnRef
  | [] => []
  | .word .from_ :: .name _ :: rest => references rest
  | .word .join :: .name _ :: rest => references rest
  | .word .as :: .name _ :: rest => references rest
  | .name q :: .symbol .dot :: .name column :: rest => ⟨some q, column⟩ :: references rest
  | .name column :: rest => ⟨none, column⟩ :: references rest
  | _ :: rest => references rest

/-- Whether the name behind a word is no reference. -/
def Keyword.introduces : Keyword → Bool
  | .from_ | .join | .as => true
  | _ => false

/-- What a fragment refers to wherever it stands. -/
structure RefersTo (f : Fragment α) (refs : List ColumnRef) : Prop where
  start : f.head? ≠ some (.symbol .dot)
  reads : ∀ rest : Fragment α, rest.head? ≠ some (.symbol .dot) →
    references (f ++ rest) = refs ++ references rest

namespace RefersTo

variable {f g : Fragment α} {refs more : List ColumnRef}

/-- With nothing behind it a fragment refers to what it refers to anywhere. -/
theorem references_eq (h : RefersTo f refs) : references f = refs := by
  have hread := h.reads [] (by simp)
  rwa [List.append_nil, references, List.append_nil] at hread

theorem nil : RefersTo ([] : Fragment α) [] :=
  ⟨by simp, fun _ _ => rfl⟩

/-- Two fragments in a row refer to what they refer to alone, since the second starts with no dot.
-/
theorem append (hf : RefersTo f refs) (hg : RefersTo g more) :
    RefersTo (f ++ g) (refs ++ more) := by
  have hstart : ∀ rest : Fragment α, rest.head? ≠ some (.symbol .dot) →
      (g ++ rest).head? ≠ some (.symbol .dot) := by
    intro rest hrest
    have hhead := hg.start
    cases g with
    | nil => exact hrest
    | cons t g => exact hhead
  refine ⟨?_, ?_⟩
  · have hhead := hf.start
    cases f with
    | nil => simpa using hg.start
    | cons t f => exact hhead
  · intro rest hrest
    rw [List.append_assoc, hf.reads _ (hstart rest hrest), hg.reads rest hrest, List.append_assoc]

/-- A word refers to nothing, if the name behind it is not given away by it. -/
theorem word {k : Keyword} (hk : k.introduces = false) : RefersTo [(.word k : Token α)] [] := by
  refine ⟨by simp, fun rest _ => ?_⟩
  cases k <;> first | rfl | cases hk

/-- Words that give no names away refer to nothing. -/
theorem words (ks : List Keyword) (hks : ∀ k ∈ ks, k.introduces = false) :
    RefersTo (ks.map .word : Fragment α) [] := by
  induction ks with
  | nil => exact nil
  | cons k ks ih =>
    exact (word (hks k (List.mem_cons_self ..))).append
      (ih fun k' hk' => hks k' (List.mem_cons_of_mem _ hk'))

/-- A symbol refers to nothing, unless it is the dot behind a qualifier. -/
theorem symbol {s : Symbol} (hs : s ≠ .dot) : RefersTo [(.symbol s : Token α)] [] :=
  ⟨by simpa using hs, fun _ _ => rfl⟩

theorem number (n : Nat) : RefersTo [(.number n : Token α)] [] :=
  ⟨by simp, fun _ _ => rfl⟩

theorem slot (a : α) : RefersTo [.slot a] [] :=
  ⟨by simp, fun _ _ => rfl⟩

/-- A reference to a column is read with its qualifier, if it has one. -/
theorem column (c : ColumnRef) : RefersTo (c.tokens : Fragment α) [c] := by
  obtain ⟨qualifier, column⟩ := c
  cases qualifier with
  | some q => exact ⟨by simp [ColumnRef.tokens], fun rest _ => rfl⟩
  | none =>
    refine ⟨by simp [ColumnRef.tokens], fun rest hrest => ?_⟩
    show references (.name column :: rest) = ⟨none, column⟩ :: references rest
    -- no dot follows the name
    rw [references]
    rintro column' rest' rfl
    exact hrest rfl

/-- A name that is given away by AS is no reference. -/
theorem aliased (aliasName : Option String) : RefersTo (aliasTokens aliasName : Fragment α) [] := by
  cases aliasName with
  | some a => exact ⟨by simp [aliasTokens], fun _ _ => rfl⟩
  | none => exact nil

theorem append_nothing (hf : RefersTo f refs) (hg : RefersTo g []) : RefersTo (f ++ g) refs := by
  have happend := hf.append hg
  rwa [List.append_nil] at happend

/-- Fragments with something between them that refers to nothing. -/
theorem intercalate {sep : Fragment α} (hsep : RefersTo sep []) {fs : List (Fragment α)}
    {rs : List (List ColumnRef)} (h : List.Forall₂ RefersTo fs rs) :
    RefersTo (sep.intercalate fs) rs.flatten := by
  induction h with
  | nil => exact nil
  | @cons f r fs rs hf hrest ih =>
    cases hrest with
    | nil => simpa using hf
    | cons _ _ =>
      rw [List.intercalate_cons_cons, List.flatten_cons]
      exact (hf.append_nothing hsep).append ih

/-- Fragments that are written for the members of a list, with something between them. -/
theorem intercalate_map {β : Type} {sep : Fragment α} (hsep : RefersTo sep []) {xs : List β}
    {write : β → Fragment α} {refs : β → List ColumnRef}
    (h : ∀ x ∈ xs, RefersTo (write x) (refs x)) :
    RefersTo (sep.intercalate (xs.map write)) (xs.flatMap refs) := by
  rw [List.flatMap_def]
  refine intercalate hsep (List.forall₂_map_right_iff.mpr (List.forall₂_map_left_iff.mpr ?_))
  exact List.forall₂_same.mpr h

/-- Fragments that are written for the members of a list, with commas between them. -/
theorem commas_map {β : Type} {xs : List β} {write : β → Fragment α}
    {refs : β → List ColumnRef} (h : ∀ x ∈ xs, RefersTo (write x) (refs x)) :
    RefersTo (commas (xs.map write)) (xs.flatMap refs) :=
  intercalate_map (symbol (by simp)) h

/-- A list refers to nothing where none of its members does. -/
theorem commas_nothing {β : Type} {xs : List β} {write : β → Fragment α}
    (h : ∀ x ∈ xs, RefersTo (write x) []) : RefersTo (commas (xs.map write)) [] := by
  have hnone : xs.flatMap (fun _ => ([] : List ColumnRef)) = [] := by simp
  rw [← hnone]
  exact commas_map h

theorem flatMap {β : Type} {xs : List β} {write : β → Fragment α} {refs : β → List ColumnRef}
    (h : ∀ x ∈ xs, RefersTo (write x) (refs x)) :
    RefersTo (xs.flatMap write) (xs.flatMap refs) := by
  induction xs with
  | nil => exact nil
  | cons x xs ih =>
    exact (h x (List.mem_cons_self ..)).append (ih fun y hy => h y (List.mem_cons_of_mem _ hy))

theorem grouped (h : RefersTo f refs) : RefersTo (grouped f) refs :=
  ((symbol (by simp)).append h).append_nothing (symbol (by simp))

/-- Both sides of a comparison refer to columns, the left one first. -/
theorem compared {s : Symbol} (hs : s ≠ .dot) (hf : RefersTo f refs) (hg : RefersTo g more) :
    RefersTo (compared s f g) (refs ++ more) :=
  hf.append ((symbol hs).append hg)

/-- A function refers to what its first argument does, where the others refer to nothing. -/
theorem call {k : Keyword} (hk : k.introduces = false) {gs : List (Fragment α)}
    (hf : RefersTo f refs) (hgs : ∀ g ∈ gs, RefersTo g []) : RefersTo (call k (f :: gs)) refs := by
  have harguments : RefersTo (commas (f :: gs)) ((refs :: gs.map fun _ => []).flatten) :=
    intercalate (symbol (by simp)) (.cons hf (List.forall₂_map_right_iff.mpr
      (List.forall₂_same.mpr hgs)))
  have hnone : (gs.map fun _ => ([] : List ColumnRef)).flatten = [] := by simp
  rw [List.flatten_cons, hnone, List.append_nil] at harguments
  exact (((word hk).append (symbol (by simp))).append harguments).append_nothing
    (symbol (by simp))

/-- Folding letter case refers to what it folds. -/
theorem folding (folded : Bool) (h : RefersTo f refs) : RefersTo (folding folded f) refs := by
  cases folded with
  | true => exact call rfl h (by simp)
  | false => exact h

theorem slotList (items : List Value) : RefersTo (slotList items) [] :=
  commas_nothing fun v _ => slot v

/-- An operand refers to the column that it looks at. -/
theorem operand (o : Operand) : RefersTo (o.tokens : Fragment α) [o.ref] := by
  cases o with
  | column c => exact column c
  | aggregate f c => exact call (by cases f <;> rfl) (column c) (by simp)

theorem clause (ks : List Keyword) (hks : ∀ k ∈ ks, k.introduces = false)
    (h : RefersTo f refs) : RefersTo (clause ks f) refs := by
  unfold Sql.clause
  split
  next hnone =>
    have hnil := List.isEmpty_iff.mp hnone
    subst hnil
    exact h
  next => exact (words ks hks).append h

end RefersTo

/-! ## Atoms and predicates -/

/-- The columns that an atom reads, in the order of the text. -/
def Atom.refs : Atom → List ColumnRef
  | .compare lhs _ _ _ => [lhs.ref]
  | .sameColumn a b => [a, b]
  | .null lhs _ => [lhs.ref]
  | .oneOf lhs _ _ _ => [lhs.ref]
  | .like lhs _ _ => [lhs.ref]
  | .array _ lhs _ => [lhs.ref]
  | .search lhs _ => [lhs.ref]
  | .constant _ => []

/-- What an atom looks at, in the order of the text. -/
def Atom.operands : Atom → List Operand
  | .compare lhs _ _ _ => [lhs]
  | .sameColumn a b => [.column a, .column b]
  | .null lhs _ => [lhs]
  | .oneOf lhs _ _ _ => [lhs]
  | .like lhs _ _ => [lhs]
  | .array _ lhs _ => [lhs]
  | .search lhs _ => [lhs]
  | .constant _ => []

/-- An atom refers to the columns of its operands. -/
theorem Atom.refs_eq (a : Atom) : a.refs = a.operands.map (·.ref) := by
  cases a <;> rfl

/-- Whether an array is empty is asked of one column, in every style. -/
theorem refersTo_isEmpty (s : ArrayStyle) {column : Fragment α} {refs : List ColumnRef}
    (h : RefersTo column refs) : RefersTo (s.isEmpty column) refs := by
  have hzero := RefersTo.number (α := α) 0
  rw [← List.append_nil refs]
  cases s with
  | native =>
    have hlength : RefersTo (call .arrayLength [column, [.number 1]]) refs :=
      .call rfl h (by simp [RefersTo.number])
    exact .compared (by simp) (.call rfl hlength (by simp [hzero])) hzero
  | json => exact .compared (by simp) (.call rfl h (by simp)) hzero

/-- A test of an array refers to the column that holds the array. -/
theorem ArrayTest.refersTo (s : ArrayStyle) {column : Fragment Value} {refs : List ColumnRef}
    (h : RefersTo column refs) (test : ArrayTest) : RefersTo (test.tokens s column) refs := by
  have hnative : ∀ {symbol : Symbol} {elements : Fragment Value}, symbol ≠ .dot →
      RefersTo elements [] →
        RefersTo (Sql.compared symbol column (SqlQuery.ArrayStyle.nativeArray elements)) refs := by
    intro symbol elements hsymbol helements
    have hmark : ∀ {m : Symbol}, m ≠ .dot → RefersTo [(.symbol m : Token Value)] [] :=
      fun hm => .symbol hm
    have harray : RefersTo (SqlQuery.ArrayStyle.nativeArray elements) [] :=
      (((RefersTo.word rfl).append (hmark (by simp))).append helements).append (hmark (by simp))
    rw [← List.append_nil refs]
    exact .compared hsymbol h harray
  have hjson : ∀ {k : Keyword} {elements : Fragment Value}, k.introduces = false →
      RefersTo elements [] → RefersTo (call k [column, call .jsonArray [elements]]) refs := by
    intro k elements hk helements
    have harray : RefersTo (call .jsonArray [elements]) [] := .call rfl helements (by simp)
    exact .call hk h (by simpa using harray)
  cases test with
  | empty expected =>
    cases expected with
    | true => exact refersTo_isEmpty s h
    | false => exact (RefersTo.word rfl).append (refersTo_isEmpty s h).grouped
  | has element =>
    cases s with
    | native => exact .compared (by simp) (.slot element) (.call rfl h (by simp))
    | json => exact hjson rfl (.slot element)
  | hasEvery elements =>
    cases s with
    | native => exact hnative (by simp) (.slotList elements)
    | json => exact hjson rfl (.slotList elements)
  | hasSome elements =>
    cases s with
    | native => exact hnative (by simp) (.slotList elements)
    | json => exact hjson rfl (.slotList elements)

/-- A text search refers to the column that it searches. -/
theorem refersTo_search (d : Dialect) {column query : Fragment Value} {refs : List ColumnRef}
    (hcolumn : RefersTo column refs) (hquery : RefersTo query []) :
    RefersTo (d.search column query) refs := by
  cases d with
  | postgres =>
    rw [← List.append_nil refs]
    exact .compared (by simp) (.call rfl hcolumn (by simp)) (.call rfl hquery (by simp))
  | mysql =>
    have hmode : RefersTo ([.word .in_, .word .natural, .word .language, .word .mode]
        : Fragment Value) [] :=
      RefersTo.words [.in_, .natural, .language, .mode] (by decide)
    exact (RefersTo.call rfl hcolumn (by simp)).append_nothing
      (.call rfl (hquery.append hmode) (by simp))
  | sqlite => exact hcolumn.append_nothing ((RefersTo.word rfl).append hquery)

/-- An atom refers to the columns that it reads. -/
theorem Atom.refersTo (d : Dialect) (a : Atom) : RefersTo (a.tokens d) a.refs := by
  have hvalue : ∀ (folded : Bool) (v : Value), RefersTo (folding folded [.slot v]) [] :=
    fun folded v => .folding folded (.slot v)
  have hlhs : ∀ (folded : Bool) (lhs : Operand),
      RefersTo (folding folded lhs.tokens : Fragment Value) [lhs.ref] :=
    fun folded lhs => .folding folded (.operand lhs)
  cases a with
  | compare lhs folded op value =>
    exact .compared (by cases op <;> simp [Comparison.symbol]) (hlhs folded lhs)
      (hvalue folded value)
  | sameColumn a b => exact .compared (by simp) (.column a) (.column b)
  | null lhs expected =>
    cases expected with
    | true =>
      exact (RefersTo.operand lhs).append_nothing (.words [.is, .null] (by decide))
    | false =>
      exact (RefersTo.operand lhs).append_nothing (.words [.is, .not, .null] (by decide))
  | oneOf lhs folded expected items =>
    have hword : RefersTo (if expected then [.word .in_] else [.word .not, .word .in_]
        : Fragment Value) [] := by
      cases expected with
      | true => exact .word rfl
      | false => exact .words [.not, .in_] (by decide)
    have hitems : RefersTo (commas (items.map fun v => folding folded [.slot v])) [] :=
      .commas_nothing fun v _ => hvalue folded v
    exact ((hlhs folded lhs).append_nothing hword).append_nothing hitems.grouped
  | like lhs folded pattern =>
    exact (hlhs folded lhs).append_nothing ((RefersTo.word rfl).append (hvalue folded _))
  | array style lhs test => exact test.refersTo style (.operand lhs)
  | search lhs query => exact refersTo_search d (.operand lhs) (.slot _)
  | constant truth => exact .compared (by simp) (.number 1) (.number _)

namespace Predicate

/-- The columns that a predicate reads, in the order of the text. -/
def refs (p : Predicate) : List ColumnRef :=
  p.atoms.flatMap Atom.refs

/-- Parts with a word between them refer to what they refer to one by one. -/
theorem refersTo_joined {d : Dialect} {k : Keyword} (hk : k.introduces = false)
    {parts : List Predicate} (h : List.Forall₂ RefersTo (tokensOf d parts) (parts.map refs)) :
    RefersTo (joined k (tokensOf d parts)) ((atomsOf parts).flatMap Atom.refs) := by
  have hjoined := RefersTo.intercalate (.word hk) h
  rw [← List.flatMap_def] at hjoined
  rw [atomsOf_eq, List.flatMap_assoc]
  exact hjoined

mutual

/-- A predicate refers to the columns of its atoms. -/
theorem refersTo (d : Dialect) : ∀ p : Predicate, RefersTo (p.tokens d) p.refs
  | .atom a => by
    have ha := a.refersTo d
    simpa [refs, atoms, tokens] using ha
  | .group p => (refersTo d p).grouped
  | .not p => (RefersTo.word rfl).append (refersTo d p).grouped
  | .all parts => refersTo_joined rfl (refersTo_each d parts)
  | .any parts => refersTo_joined rfl (refersTo_each d parts)

theorem refersTo_each (d : Dialect) :
    ∀ ps : List Predicate, List.Forall₂ RefersTo (tokensOf d ps) (ps.map refs)
  | [] => .nil
  | p :: rest => .cons (refersTo d p) (refersTo_each d rest)

end

end Predicate

/-! ## Selections -/

/-- The columns of an item. -/
def SelectItem.ref : SelectItem → ColumnRef
  | .star qualifier => { qualifier, column := "*" }
  | .column c _ => c
  | .aggregate _ c _ => c

/-- The columns by which rows are made distinct. -/
def Distinct.refs : Distinct → List ColumnRef
  | .on columns => columns
  | _ => []

/-- The columns that the clauses of a selection refer to, one clause after the other. -/
def Select.refs (s : Select) : List ColumnRef :=
  s.distinct.refs ++ s.items.map (·.ref) ++ s.joins.flatMap (·.on.refs)
    ++ s.where_.toList.flatMap (·.refs) ++ s.groupBy ++ s.having.toList.flatMap (·.refs)
    ++ s.orderBy.map (·.1)

/-- An item refers to one column, or to all of a table. -/
theorem SelectItem.refersTo (i : SelectItem) : RefersTo (i.tokens : Fragment α) [i.ref] := by
  cases i with
  | star qualifier => exact .column _
  | column c aliasName => exact (RefersTo.column c).append_nothing (.aliased aliasName)
  | aggregate f c aliasName => exact (RefersTo.operand _).append_nothing (.aliased _)

/-- A list of columns refers to each of them in order. -/
theorem refersTo_columns (columns : List ColumnRef) :
    RefersTo (commas (columns.map (·.tokens)) : Fragment α) columns := by
  have hcolumns : RefersTo (commas (columns.map (·.tokens)) : Fragment α)
      (columns.flatMap fun c => [c]) := .commas_map fun c _ => .column c
  rwa [List.flatMap_singleton'] at hcolumns

/-- Rows that are distinct by some columns refer to these. -/
theorem Distinct.refersTo (x : Distinct) : RefersTo (x.tokens : Fragment α) x.refs := by
  cases x with
  | keep => exact .nil
  | rows => exact .word rfl
  | on columns =>
    exact (RefersTo.words [.distinct, .on] (by decide)).append
      (refersTo_columns columns).grouped

/-- Table and alias of a join are no references, so only its condition counts. -/
theorem Join.refersTo (d : Dialect) (j : Join) : RefersTo (j.tokens d) j.on.refs := by
  have hhead : RefersTo ([.word .left, .word .join, .name j.table, .word .as, .name j.aliasName,
      .word .on] : Fragment Value) [] :=
    ⟨by simp, fun _ _ => rfl⟩
  exact hhead.append (j.on.refersTo d)

theorem refersTo_optional (d : Dialect) (p : Option Predicate) :
    RefersTo (optional d p) (p.toList.flatMap (·.refs)) := by
  cases p with
  | some p => simpa [optional] using p.refersTo d
  | none => exact .nil

theorem refersTo_limitOffset (d : Dialect) (limit offset : Option Nat) :
    RefersTo (d.limitOffset limit offset : Fragment α) [] := by
  cases d <;> cases limit <;> cases offset <;> exact ⟨by simp [Dialect.limitOffset,
    Dialect.noLimit?], fun _ _ => rfl⟩

/-- A selection refers to the columns of its clauses, and to no others. -/
theorem Select.references_tokens (d : Dialect) (s : Select) : references (s.tokens d) = s.refs := by
  have hitems : RefersTo (commas (s.items.map (·.tokens)) : Fragment Value)
      (s.items.map (·.ref)) := by
    have hall : RefersTo (commas (s.items.map (·.tokens)) : Fragment Value)
        (s.items.flatMap fun i => [i.ref]) := .commas_map fun i _ => i.refersTo
    rwa [← List.map_eq_flatMap] at hall
  have hfrom : RefersTo ([.word .from_, .name s.table] : Fragment Value) [] :=
    ⟨by simp, fun _ _ => rfl⟩
  have hjoins : RefersTo (s.joins.flatMap (·.tokens d)) (s.joins.flatMap (·.on.refs)) :=
    .flatMap fun j _ => j.refersTo d
  have horder : RefersTo (commas (s.orderBy.map fun o => o.1.tokens ++ [.word (.ofOrder o.2)])
      : Fragment Value) (s.orderBy.map (·.1)) := by
    have hall : RefersTo (commas (s.orderBy.map fun o => o.1.tokens ++ [.word (.ofOrder o.2)])
        : Fragment Value) (s.orderBy.flatMap fun o => [o.1]) :=
      .commas_map fun o _ => (RefersTo.column o.1).append_nothing (.word (by cases o.2 <;> rfl))
    rwa [← List.map_eq_flatMap] at hall
  have hselected := ((RefersTo.word (α := Value) (k := .select) rfl).append
    s.distinct.refersTo).append hitems
  have hjoined := (hselected.append_nothing hfrom).append hjoins
  have hfiltered := hjoined.append (.clause [.where_] (by decide)
    (refersTo_optional d s.where_))
  have hgrouped := hfiltered.append (.clause [.group, .by_] (by decide)
    (refersTo_columns s.groupBy))
  have hkept := hgrouped.append (.clause [.having] (by decide)
    (refersTo_optional d s.having))
  have hsorted := hkept.append (.clause [.order, .by_] (by decide) horder)
  exact (hsorted.append_nothing (refersTo_limitOffset d s.limit s.offset)).references_eq

end SqlQuery.Sql
