import SqlQuery.Proofs.Sql.Alike
import SqlQuery.Proofs.Sql.Lexeme

/-!
# Names keep their places

`Statement.form` is a statement without its names: at every place of a name stands the label
of the role that the name plays there. So the tokens of the form are the words, symbols,
numbers and slots that are written whatever the names are, and the places that are left for
names (`Statement.form_rename`).

A reader of the text must find just these. `Token.ReadAs` says what is to be found at one
token, a single lexeme where there is a name, and `Statement.ReadsBack` says it of a text and
all the tokens of its statement.

> `Statement.Alike.rename`: names may be replaced on one side of statements that are alike.

> `Statement.exists_readsBack`: the text of a statement is read as its form, with the
> statement's own names in their places.
-/

namespace SqlQuery.Sql

/-! ## Replacing names -/

/-- What replaces a name in each role. -/
abbrev Renaming := Role → String → String

/-- The reference with its names replaced. -/
def ColumnRef.rename (ρ : Renaming) (c : ColumnRef) : ColumnRef :=
  { qualifier := c.qualifier.map (ρ .qualifier), column := ρ .column c.column }

/-- The operand with its names replaced. -/
def Operand.rename (ρ : Renaming) : Operand → Operand
  | .column c => .column (c.rename ρ)
  | .aggregate f c => .aggregate f (c.rename ρ)

/-- The atom with its names replaced. -/
def Atom.rename (ρ : Renaming) : Atom → Atom
  | .compare lhs folded op value => .compare (lhs.rename ρ) folded op value
  | .sameColumn a b => .sameColumn (a.rename ρ) (b.rename ρ)
  | .null lhs expected => .null (lhs.rename ρ) expected
  | .oneOf lhs folded expected items => .oneOf (lhs.rename ρ) folded expected items
  | .like lhs folded pattern => .like (lhs.rename ρ) folded pattern
  | .array style lhs test => .array style (lhs.rename ρ) test
  | .search lhs query => .search (lhs.rename ρ) query
  | .constant truth => .constant truth

namespace Predicate

mutual

/-- The predicate with its names replaced. -/
def rename (ρ : Renaming) : Predicate → Predicate
  | .atom a => .atom (a.rename ρ)
  | .group p => .group (rename ρ p)
  | .not p => .not (rename ρ p)
  | .all parts => .all (renameEach ρ parts)
  | .any parts => .any (renameEach ρ parts)

/-- Some predicates with their names replaced. -/
def renameEach (ρ : Renaming) : List Predicate → List Predicate
  | [] => []
  | p :: rest => rename ρ p :: renameEach ρ rest

end

end Predicate

/-- The item with its names replaced. -/
def SelectItem.rename (ρ : Renaming) : SelectItem → SelectItem
  | .star qualifier => .star (qualifier.map (ρ .qualifier))
  | .column c aliasName => .column (c.rename ρ) (aliasName.map (ρ .output))
  | .aggregate f c aliasName => .aggregate f (c.rename ρ) (ρ .output aliasName)

/-- The way to drop rows with its names replaced. -/
def Distinct.rename (ρ : Renaming) : Distinct → Distinct
  | .keep => .keep
  | .rows => .rows
  | .on columns => .on (columns.map (·.rename ρ))

/-- The join with its names replaced. -/
def Join.rename (ρ : Renaming) (j : Join) : Join :=
  { table := ρ .table j.table, aliasName := ρ .alias j.aliasName, on := j.on.rename ρ }

/-- The selection with its names replaced. -/
def Select.rename (ρ : Renaming) (s : Select) : Select :=
  { distinct := s.distinct.rename ρ
    items := s.items.map (·.rename ρ)
    table := ρ .table s.table
    joins := s.joins.map (·.rename ρ)
    where_ := s.where_.map (·.rename ρ)
    groupBy := s.groupBy.map (·.rename ρ)
    having := s.having.map (·.rename ρ)
    orderBy := s.orderBy.map fun o => (o.1.rename ρ, o.2)
    limit := s.limit
    offset := s.offset }

/-- The assignment with its names replaced. -/
def Assignment.rename (ρ : Renaming) (a : Assignment) : Assignment :=
  { a with column := ρ .column a.column }

/-- What to do on a conflict, with its names replaced. -/
def Conflict.rename (ρ : Renaming) (c : Conflict) : Conflict :=
  { keys := c.keys.map (ρ .column), assignments := c.assignments.map (·.rename ρ) }

namespace Statement

/-- The statement with its names replaced. -/
def rename (ρ : Renaming) : Statement → Statement
  | .select s => .select (s.rename ρ)
  | .insert table columns rows conflict returning =>
    .insert (ρ .table table) (columns.map (ρ .column)) rows (conflict.map (·.rename ρ)) returning
  | .insertUnless table columns row present =>
    .insertUnless (ρ .table table) (columns.map (ρ .column)) row (present.rename ρ)
  | .update table assignments where_ returning =>
    .update (ρ .table table) (assignments.map (·.rename ρ)) (where_.rename ρ) returning
  | .delete table where_ returning => .delete (ρ .table table) (where_.rename ρ) returning

end Statement

/-! ## Replacing names twice -/

/-- One replacement after another. -/
def Renaming.after (σ ρ : Renaming) : Renaming :=
  fun r n => σ r (ρ r n)

section

variable (σ ρ : Renaming)

theorem ColumnRef.rename_rename (c : ColumnRef) :
    (c.rename ρ).rename σ = c.rename (σ.after ρ) := by
  unfold ColumnRef.rename
  rw [Option.map_map]
  rfl

theorem Operand.rename_rename (o : Operand) : (o.rename ρ).rename σ = o.rename (σ.after ρ) := by
  cases o with
  | column c => exact congrArg _ (c.rename_rename σ ρ)
  | aggregate f c => exact congrArg _ (c.rename_rename σ ρ)

/-- Names that are replaced twice are replaced once by both, here in an atom. -/
theorem Atom.rename_rename (a : Atom) : (a.rename ρ).rename σ = a.rename (σ.after ρ) := by
  cases a <;> simp only [Atom.rename, Operand.rename_rename, ColumnRef.rename_rename]

namespace Predicate

mutual

/-- Names that are replaced twice are replaced once by both, all over a predicate. -/
theorem rename_rename : ∀ p : Predicate, (p.rename ρ).rename σ = p.rename (σ.after ρ)
  | .atom a => congrArg _ (a.rename_rename σ ρ)
  | .group p => congrArg _ (rename_rename p)
  | .not p => congrArg _ (rename_rename p)
  | .all parts => congrArg _ (renameEach_renameEach parts)
  | .any parts => congrArg _ (renameEach_renameEach parts)

theorem renameEach_renameEach :
    ∀ ps : List Predicate, renameEach σ (renameEach ρ ps) = renameEach (σ.after ρ) ps
  | [] => rfl
  | p :: rest => congrArg₂ List.cons (rename_rename p) (renameEach_renameEach rest)

end

end Predicate

/-- Names that are replaced twice in the members of a list. -/
theorem map_rename_rename {α : Type} {rename : Renaming → α → α}
    (h : ∀ a, rename σ (rename ρ a) = rename (σ.after ρ) a) (as : List α) :
    (as.map (rename ρ)).map (rename σ) = as.map (rename (σ.after ρ)) := by
  rw [List.map_map]
  exact List.map_congr_left fun a _ => h a

theorem optionMap_rename_rename {α : Type} {rename : Renaming → α → α}
    (h : ∀ a, rename σ (rename ρ a) = rename (σ.after ρ) a) (a : Option α) :
    (a.map (rename ρ)).map (rename σ) = a.map (rename (σ.after ρ)) := by
  cases a with
  | none => rfl
  | some a => exact congrArg some (h a)

theorem SelectItem.rename_rename (i : SelectItem) :
    (i.rename ρ).rename σ = i.rename (σ.after ρ) := by
  cases i <;> simp only [SelectItem.rename, ColumnRef.rename_rename, Option.map_map] <;> rfl

theorem Distinct.rename_rename (k : Distinct) : (k.rename ρ).rename σ = k.rename (σ.after ρ) := by
  cases k with
  | keep => rfl
  | rows => rfl
  | on cs => exact congrArg _ (map_rename_rename σ ρ (ColumnRef.rename_rename σ ρ) cs)

theorem Join.rename_rename (j : Join) : (j.rename ρ).rename σ = j.rename (σ.after ρ) := by
  unfold Join.rename
  rw [j.on.rename_rename]
  rfl

/-- Every clause of a selection has its names replaced. -/
theorem Select.rename_rename (s : Select) : (s.rename ρ).rename σ = s.rename (σ.after ρ) := by
  unfold Select.rename
  dsimp only
  rw [s.distinct.rename_rename, map_rename_rename σ ρ (SelectItem.rename_rename σ ρ),
    map_rename_rename σ ρ (Join.rename_rename σ ρ),
    map_rename_rename σ ρ (ColumnRef.rename_rename σ ρ),
    optionMap_rename_rename σ ρ (Predicate.rename_rename σ ρ),
    optionMap_rename_rename σ ρ (Predicate.rename_rename σ ρ), List.map_map]
  simp only [Function.comp_def, ColumnRef.rename_rename]
  rfl

theorem Assignment.rename_rename (a : Assignment) :
    (a.rename ρ).rename σ = a.rename (σ.after ρ) :=
  rfl

theorem Conflict.rename_rename (c : Conflict) : (c.rename ρ).rename σ = c.rename (σ.after ρ) := by
  unfold Conflict.rename
  dsimp only
  rw [map_rename_rename σ ρ (Assignment.rename_rename σ ρ), List.map_map]
  rfl

/-- To replace the names of a statement twice is to replace them once by both. -/
theorem Statement.rename_rename (s : Statement) :
    (s.rename ρ).rename σ = s.rename (σ.after ρ) := by
  cases s with
  | select s => exact congrArg _ (s.rename_rename σ ρ)
  | insert table columns rows conflict returning =>
    simp only [Statement.rename, List.map_map,
      optionMap_rename_rename σ ρ (Conflict.rename_rename σ ρ)]
    rfl
  | insertUnless table columns row present =>
    simp only [Statement.rename, List.map_map, present.rename_rename]
    rfl
  | update table assignments where_ returning =>
    simp only [Statement.rename, where_.rename_rename,
      map_rename_rename σ ρ (Assignment.rename_rename σ ρ)]
    rfl
  | delete table where_ returning =>
    simp only [Statement.rename, where_.rename_rename]
    rfl

end

/-! ## Likeness to what is renamed -/

/-- The likeness to what is replaced for the names of one side. -/
def Likeness.renamed (L : Likeness) (ρ : Renaming) : Likeness :=
  { names := fun r n n' => ∃ m, L.names r n m ∧ n' = ρ r m, values := L.values }

variable {L : Likeness}

/-- What is related one by one stays so where one side is changed. -/
theorem forall₂_map_right {α β γ : Type} {R : α → β → Prop} {S : α → γ → Prop} {f : β → γ}
    {as : List α} {bs : List β} (h : List.Forall₂ R as bs) (hf : ∀ a b, R a b → S a (f b)) :
    List.Forall₂ S as (bs.map f) :=
  List.forall₂_map_right_iff.mpr (h.imp hf)

/-- What may be missing is related to what is made of the other side. -/
theorem rel_map_right {α β γ : Type} {R : α → β → Prop} {S : α → γ → Prop} {f : β → γ}
    {a : Option α} {b : Option β} (h : Option.Rel R a b) (hf : ∀ a b, R a b → S a (f b)) :
    Option.Rel S a (b.map f) := by
  cases h with
  | none => exact .none
  | some h => exact .some (hf _ _ h)

/-- Names that are related stay so in the likeness to renamed names. -/
theorem Likeness.names_renamed (ρ : Renaming) {r : Role} (n m : String) (h : L.names r n m) :
    (L.renamed ρ).names r n (ρ r m) :=
  ⟨m, h, rfl⟩

theorem ColumnRef.Alike.rename (ρ : Renaming) {c c' : ColumnRef} (h : c.Alike L c') :
    c.Alike (L.renamed ρ) (c'.rename ρ) :=
  ⟨rel_map_right h.qualifier (Likeness.names_renamed ρ), Likeness.names_renamed ρ _ _ h.column⟩

theorem Operand.Alike.rename (ρ : Renaming) {lhs lhs' : Operand} (h : lhs.Alike L lhs') :
    lhs.Alike (L.renamed ρ) (lhs'.rename ρ) := by
  cases h with
  | column h => exact .column (h.rename ρ)
  | aggregate f h => exact .aggregate f (h.rename ρ)

/-- Tests of arrays hold no names. -/
theorem ArrayTest.Alike.renamed (ρ : Renaming) {test test' : ArrayTest} (h : test.Alike L test') :
    test.Alike (L.renamed ρ) test' := by
  cases h with
  | empty expected => exact .empty expected
  | has h => exact .has h
  | hasEvery h => exact .hasEvery h
  | hasSome h => exact .hasSome h

/-- An atom stays alike to one whose names are replaced, in the likeness that knows of it. -/
theorem Atom.Alike.rename (ρ : Renaming) {a a' : Atom} (h : a.Alike L a') :
    a.Alike (L.renamed ρ) (a'.rename ρ) := by
  cases h with
  | compare folded op hlhs hvalue => exact .compare folded op (hlhs.rename ρ) hvalue
  | sameColumn ha hb => exact .sameColumn (ha.rename ρ) (hb.rename ρ)
  | null expected hlhs => exact .null expected (hlhs.rename ρ)
  | oneOf folded expected hlhs hitems => exact .oneOf folded expected (hlhs.rename ρ) hitems
  | like folded hlhs hpattern => exact .like folded (hlhs.rename ρ) hpattern
  | array style hlhs htest => exact .array style (hlhs.rename ρ) (htest.renamed ρ)
  | search hlhs hquery => exact .search (hlhs.rename ρ) hquery
  | constant truth => exact .constant truth

namespace Predicate

mutual

/-- A predicate stays alike to one whose names are replaced. -/
theorem Alike.rename (ρ : Renaming) :
    ∀ {p p' : Predicate}, p.Alike L p' → p.Alike (L.renamed ρ) (p'.rename ρ)
  | _, _, .atom h => .atom (h.rename ρ)
  | _, _, .group h => .group (Alike.rename ρ h)
  | _, _, .not h => .not (Alike.rename ρ h)
  | _, _, .all h => .all (AllAlike.renameEach ρ h)
  | _, _, .any h => .any (AllAlike.renameEach ρ h)

theorem AllAlike.renameEach (ρ : Renaming) :
    ∀ {ps ps' : List Predicate}, AllAlike L ps ps' →
      AllAlike (L.renamed ρ) ps (Predicate.renameEach ρ ps')
  | _, _, .nil => .nil
  | _, _, .cons h hrest => .cons (Alike.rename ρ h) (AllAlike.renameEach ρ hrest)

end

end Predicate

theorem SelectItem.Alike.rename (ρ : Renaming) {i i' : SelectItem} (h : i.Alike L i') :
    i.Alike (L.renamed ρ) (i'.rename ρ) := by
  cases h with
  | star hqualifier => exact .star (rel_map_right hqualifier (Likeness.names_renamed ρ))
  | column hcolumn halias =>
    exact .column (hcolumn.rename ρ) (rel_map_right halias (Likeness.names_renamed ρ))
  | aggregate f hcolumn halias =>
    exact .aggregate f (hcolumn.rename ρ) (Likeness.names_renamed ρ _ _ halias)

theorem Distinct.Alike.rename (ρ : Renaming) {k k' : Distinct} (h : k.Alike L k') :
    k.Alike (L.renamed ρ) (k'.rename ρ) := by
  cases h with
  | keep => exact .keep
  | rows => exact .rows
  | on h => exact .on (forall₂_map_right h fun _ _ hc => hc.rename ρ)

theorem Join.Alike.rename (ρ : Renaming) {j j' : Join} (h : j.Alike L j') :
    j.Alike (L.renamed ρ) (j'.rename ρ) :=
  { table := Likeness.names_renamed ρ _ _ h.table
    aliasName := Likeness.names_renamed ρ _ _ h.aliasName
    on := h.on.rename ρ }

/-- A selection stays alike to one whose names are replaced, clause by clause. -/
theorem Select.Alike.rename (ρ : Renaming) {s s' : Select} (h : s.Alike L s') :
    s.Alike (L.renamed ρ) (s'.rename ρ) :=
  { distinct := h.distinct.rename ρ
    items := forall₂_map_right h.items fun _ _ hi => hi.rename ρ
    table := Likeness.names_renamed ρ _ _ h.table
    joins := forall₂_map_right h.joins fun _ _ hj => hj.rename ρ
    where_ := rel_map_right h.where_ fun _ _ hp => hp.rename ρ
    groupBy := forall₂_map_right h.groupBy fun _ _ hc => hc.rename ρ
    having := rel_map_right h.having fun _ _ hp => hp.rename ρ
    orderBy := forall₂_map_right h.orderBy fun _ _ ho => ⟨ho.1.rename ρ, ho.2⟩
    limit := h.limit
    offset := h.offset }

/-- Columns that are set may be replaced, values stay. -/
theorem Assignment.Alike.rename (ρ : Renaming) {a a' : Assignment} (h : a.Alike L a') :
    a.Alike (L.renamed ρ) (a'.rename ρ) := by
  refine ⟨Likeness.names_renamed ρ _ _ h.column, ?_⟩
  obtain ⟨column, source⟩ := a
  obtain ⟨column', source'⟩ := a'
  cases h.source with
  | value hv => exact .value hv
  | null => exact .null
  | proposed => exact .proposed

/-- Keys and assignments have their columns replaced. -/
theorem Conflict.Alike.rename (ρ : Renaming) {c c' : Conflict} (h : c.Alike L c') :
    c.Alike (L.renamed ρ) (c'.rename ρ) :=
  { keys := forall₂_map_right h.keys (Likeness.names_renamed ρ)
    assignments := forall₂_map_right h.assignments fun _ _ ha => ha.rename ρ }

/-- Names may be replaced on one side of statements that are alike. -/
theorem Statement.Alike.rename (ρ : Renaming) {s s' : Statement} (h : s.Alike L s') :
    s.Alike (L.renamed ρ) (s'.rename ρ) := by
  have hcolumns : ∀ {names names' : List String}, List.Forall₂ (L.names .column) names names' →
      List.Forall₂ ((L.renamed ρ).names .column) names (names'.map (ρ .column)) :=
    fun h => forall₂_map_right h (Likeness.names_renamed ρ)
  cases h with
  | select h => exact .select (h.rename ρ)
  | insert returning htable hnames hrows hconflict =>
    exact .insert returning (Likeness.names_renamed ρ _ _ htable) (hcolumns hnames) hrows
      (rel_map_right hconflict fun _ _ hc => hc.rename ρ)
  | insertUnless htable hnames hrow hp =>
    exact .insertUnless (Likeness.names_renamed ρ _ _ htable) (hcolumns hnames) hrow
      (hp.rename ρ)
  | update returning htable hassignments hp =>
    exact .update returning (Likeness.names_renamed ρ _ _ htable)
      (forall₂_map_right hassignments fun _ _ ha => ha.rename ρ) (hp.rename ρ)
  | delete returning htable hp =>
    exact .delete returning (Likeness.names_renamed ρ _ _ htable) (hp.rename ρ)

/-! ## Forms -/

/-- What the places of a role are called. -/
def Role.label : Role → String
  | .table => "table"
  | .column => "column"
  | .qualifier => "qualifier"
  | .alias => "alias"
  | .output => "output"

/-- What the names of a statement are known to be, by their roles. -/
abbrev Known := Role → String → Prop

/-- The likeness of a statement to itself, where all its names are known. -/
def named (known : Known) : Likeness :=
  { names := fun r n n' => n = n' ∧ known r n, values := Eq }

/-- The statement with the labels of their roles for its names. -/
def Statement.form (s : Statement) : Statement :=
  s.rename fun r _ => r.label

/-- Statements that differ in names only have one form. -/
theorem Statement.form_rename (ρ : Renaming) (s : Statement) : (s.rename ρ).form = s.form :=
  s.rename_rename (fun r _ => r.label) ρ

/-! ## Reading names -/

/-- The name that a lexeme stands for, if it can. -/
def Lexeme.name? : Lexeme → Option String
  | .word cs => some (String.ofList cs)
  | .quoted cs => some (String.ofList cs)
  | .mark c => if c = '*' then some "*" else none
  | .placeholder _ => none

/-- A lexeme stands for a name, and for the name `*` only where it is a star. -/
structure Lexeme.StandsFor (l : Lexeme) (n : String) : Prop where
  name_eq : l.name? = some n
  star : n = "*" → l = .mark '*'

/-- A name is read as one lexeme, which stands for it. -/
theorem Lexeme.standsFor_ofName (n : String) : (Lexeme.ofName n.toList).StandsFor n := by
  by_cases hstar : n.toList = ['*']
  · have hn : n = "*" := by rw [← String.ofList_toList (s := n), hstar]
    subst hn
    exact ⟨rfl, fun _ => rfl⟩
  · have hn : n ≠ "*" := by rintro rfl; exact hstar rfl
    refine ⟨?_, fun h => absurd h hn⟩
    unfold Lexeme.ofName
    rw [if_neg hstar]
    split <;> exact congrArg some String.ofList_toList

/-- What a reader finds at a token. At a name it is one lexeme that stands for some name, and
`names` says which. -/
inductive Token.ReadAs (d : Dialect) (names : String → String → Prop) :
    Token Nat → List Lexeme → Prop where
  | word (k : Keyword) : ReadAs d names (.word k) [.word k.text.toList]
  | symbol (s : Symbol) : ReadAs d names (.symbol s) (s.text.toList.map .mark)
  | number (n : Nat) : ReadAs d names (.number n) [.word (Nat.toDigits 10 n)]
  | slot (i : Nat) : ReadAs d names (.slot i) [.placeholder (d.placeholder i).toList]
  | name {n m : String} {l : Lexeme} : l.StandsFor m → names n m → ReadAs d names (.name n) [l]

/-- Every token is read as what it is written as. -/
theorem Token.readAs_lexemes (d : Dialect) (t : Token Nat) : t.ReadAs d Eq (t.lexemes d) := by
  cases t with
  | word k => exact .word k
  | symbol s => exact .symbol s
  | number n => exact .number n
  | slot i => exact .slot i
  | name n => exact .name (Lexeme.standsFor_ofName n) rfl

/-- At a label stands a name that is known for the role, and a star for a star. -/
inductive Fits (known : Known) : String → String → Prop where
  | star : Fits known "*" "*"
  | label {r : Role} {n : String} : known r n → Fits known r.label n

/-- The text of a statement falls into pieces, one for each token: those of the names stand
for the names of the statement, and all of them are what its form has at their places. -/
structure Statement.ReadsBack (d : Dialect) (known : Known) (s : Statement)
    (pieces : List (List Lexeme)) : Prop where
  text : lexemes d.quote (s.prepare d).sql.toList = some pieces.flatten
  names : List.Forall₂ (Token.ReadAs d Eq) (number 0 (s.tokens d)) pieces
  form : List.Forall₂ (Token.ReadAs d (Fits known)) (number 0 (s.form.tokens d)) pieces

/-- Where labels are written for known names, the lexemes of the one fragment are what is read
at the other. -/
theorem Written.readAs (d : Dialect) {known : Known} {f f' : Fragment Value}
    (h : Written ((named known).renamed fun r _ => r.label) f f') :
    ∀ bound : Nat, List.Forall₂ (Token.ReadAs d (Fits known)) (number bound f')
      ((number bound f).map (Token.lexemes d)) := by
  induction h with
  | nil => intro bound; exact .nil
  | cons ht _ ih =>
    intro bound
    cases ht with
    | word k => exact .cons (.word k) (ih bound)
    | symbol s => exact .cons (.symbol s) (ih bound)
    | number n => exact .cons (.number n) (ih bound)
    | star => exact .cons (.name (Lexeme.standsFor_ofName "*") .star) (ih bound)
    | name hname =>
      obtain ⟨m, ⟨rfl, hknown⟩, rfl⟩ := hname
      exact .cons (.name (Lexeme.standsFor_ofName _) (.label hknown)) (ih bound)
    | slot _ => exact .cons (.slot _) (ih (bound + 1))

/-- The text of a statement is read as its form, with the statement's own names in their
places. -/
theorem Statement.exists_readsBack (d : Dialect) {known : Known} {s : Statement}
    (h : s.Alike (named known) s) : ∃ pieces, s.ReadsBack d known pieces := by
  refine ⟨(number 0 (s.tokens d)).map (Token.lexemes d), ?_, ?_, ?_⟩
  · rw [← List.flatMap_def]
    exact lexemes_render d 0 (s.tokens d)
  · rw [List.forall₂_map_right_iff, List.forall₂_same]
    exact fun t _ => t.readAs_lexemes d
  · exact ((h.rename fun r _ => r.label).tokens d).readAs d 0

end SqlQuery.Sql
