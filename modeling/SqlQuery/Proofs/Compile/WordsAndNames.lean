import SqlQuery.Proofs.Compile.Emitted
import SqlQuery.Proofs.Compile.Selection
import SqlQuery.Proofs.Compile.Written
import SqlQuery.Proofs.Sql.Vocabulary
import SqlQuery.Proofs.Sql.WhereClause

/-!
# Words that can be names

Every dialect writes its statements with some words, and no statement that is compiled has others.
Where a table, a column or an alias is spelled like one of these, the name has to be quoted, or the
text does not tell whether the word or the name is meant. The list of reserved words has most of
them but not all: a column `desc` is left bare, in a text in which DESC may stand for a direction.

> `Statement.CompiledIn.styled`: the conditions of compiled statements are in the dialect's style.

> `Dialect.writes_iff`: which words the statements of a dialect are written with.

> `bare_word_iff`: which names can be taken for them.
-/

namespace SqlQuery

open Sql

/-! ## Compiled statements -/

/-- A statement that some query or some nested writes are compiled to. -/
inductive Sql.Statement.CompiledIn (env : Env) : Statement → Prop
  | query {q : Query} {c : Compiled} (h : q.compile env = .ok c) : CompiledIn env c.statement
  | nested {parent : String} {key : Value} {ws : List NestedWrite} {statements : List Statement}
      {s : Statement} (h : NestedWrite.compileAll env parent key ws = .ok statements)
      (hs : s ∈ statements) : CompiledIn env s

namespace Condition

variable {c : Condition} {env : Env} {scope : FilterScope} {a : Atom}

/-- A test of an array is written in the style of its dialect. -/
theorem styled_of_arrays {lhs : Operand} {test : ArrayTest}
    (h : (c.arrays env >>= fun style => .ok (.array style lhs test)) = .ok a) :
    a.Styled env.dialect := by
  obtain ⟨style, hstyle, h⟩ := bind_eq_ok.mp h
  cases h
  unfold arrays at hstyle
  split at hstyle
  next harrays =>
    cases hstyle
    exact harrays
  next => cases hstyle

/-- A test of elements is written in the style of its dialect, or is a constant. -/
theorem styled_of_elements {lhs : Operand} {vacuous : Bool} {test : List Value → ArrayTest}
    (h : c.elements env lhs vacuous test = .ok a) : a.Styled env.dialect := by
  unfold elements at h
  split at h
  next => cases h
  next items _ =>
    by_cases hempty : items.isEmpty = true
    · simp only [hempty, if_true] at h
      obtain ⟨style, -, h⟩ := bind_eq_ok.mp h
      cases h
      trivial
    · simp only [hempty] at h
      exact styled_of_arrays h

/-- A condition on arrays has an atom in the style of the dialect. -/
theorem styled_of_atom (h : c.atom env scope = .ok a) : a.Styled env.dialect := by
  unfold atom at h
  obtain ⟨lhs, -, h⟩ := bind_eq_ok.mp h
  split at h
  next => cases h
  next =>
    cases hop : c.op <;> rw [hop] at h <;> dsimp only at h
    case equals | not =>
      cases h
      unfold matching
      split <;> trivial
    case lt | lte | gt | gte =>
      unfold ordered at h
      split at h <;> cases h
      trivial
    case isIn | notIn =>
      unfold membership at h
      split at h <;> cases h <;> trivial
    case contains | startsWith | endsWith =>
      unfold patterned at h
      split at h <;> cases h
      trivial
    case isNull | search =>
      split at h <;> cases h
      trivial
    case isEmpty =>
      split at h
      · exact styled_of_arrays h
      · cases h
    case has =>
      split at h
      · cases h
      · exact styled_of_arrays h
    case hasEvery | hasSome => exact styled_of_elements h

/-- Compiled conditions are written in the style of their dialect. -/
theorem CompiledTo.styled {cs : List Condition} {as : List Atom} (h : CompiledTo env scope cs as) :
    ∀ a ∈ as, a.Styled env.dialect := by
  intro a ha
  obtain ⟨c, -, hc⟩ := exists_mem_of_forall₂ h a ha
  exact styled_of_atom hc

end Condition

section

variable {env : Env}

/-- A compiled filter is written in the style of its dialect. -/
theorem Filter.styled_of_compile {f : Filter} {scope : FilterScope} {p : Option Predicate}
    (h : f.compile env scope = .ok p) : ∀ q ∈ p.toList, ∀ a ∈ q.atoms, a.Styled env.dialect := by
  intro q hq a ha
  refine (compileNode_spec env scope f 1 p h).atoms.styled a ?_
  rw [Option.mem_toList.mp hq]
  exact List.mem_append_left _ ha

/-- The condition of a join is made of equalities of columns and of a filter. -/
theorem JoinSite.CompiledTo.styled {site : JoinSite} {j : Join} (h : site.CompiledTo env j) :
    ∀ a ∈ j.on.atoms, a.Styled env.dialect := by
  obtain ⟨relation, parent, equalities, filter, hj⟩ := h
  have hpairs := (relationEqualities_spec hj.equalities_eq).2
  have hfilter := (Inclusion.compileFilter_spec hj.filter_eq).atoms.styled
  intro a ha
  rw [hj.on_eq, Predicate.atoms, Predicate.atomsOf_append, Predicate.atomsOf_map_atom,
    List.mem_append] at ha
  rcases ha with ha | ha
  · obtain ⟨pair, -, c, c', -, -, rfl⟩ := exists_mem_of_forall₂ hpairs a ha
    trivial
  · exact hfilter a ha

/-- The joins and conditions of a selection are written in the style of its dialect. -/
theorem Query.SelectedAs.styled {q : Query} {plan : JoinPlan} {s : Select} {mapping : ResultMapping}
    (h : q.SelectedAs env plan s mapping) : (Statement.select s).Styled env.dialect := by
  refine List.forall_mem_append.mpr ⟨List.forall_mem_append.mpr ⟨?_, ?_⟩, ?_⟩
  · rw [h.joins_eq]
    refine List.forall_mem_map.mpr fun j hj => ?_
    obtain ⟨site, -, hsite⟩ :=
      exists_mem_of_forall₂ (Inclusion.compileJoins_spec h.plan_eq).2 j hj
    exact hsite.styled
  · exact Filter.styled_of_compile h.where_eq
  · exact Filter.styled_of_compile h.having_eq

/-- The condition of an update or a deletion is written in the style of its dialect. -/
theorem Query.WrittenAs.styled {q : Query} {s : Statement} (h : q.WrittenAs env s) :
    s.Styled env.dialect := by
  cases h with
  | create | createMany | upsert => exact fun _ hp => absurd hp List.not_mem_nil
  | update _ _ _ hp | delete _ hp =>
    refine List.forall_mem_singleton.mpr ?_
    exact Filter.styled_of_compile (compile_of_safeWhere hp) _ (by simp)

namespace NestedScope

variable {x : NestedScope}

/-- The condition that picks rows is written in the style of its dialect. -/
theorem styled_of_pick {own : Bool} {f : Filter} {p : Predicate} (h : x.pick own f = .ok p) :
    ∀ a ∈ p.atoms, a.Styled x.env.dialect := by
  cases own with
  | false => exact Filter.styled_of_compile (compile_of_requiredWhere h) _ (by simp)
  | true =>
    have hscoped : x.scopedWhere f = .ok p := h
    obtain ⟨q, hq, hp⟩ := bind_eq_ok.mp hscoped
    cases hp
    have hfilter := (Filter.compileOperand_spec (Refusal.forget_eq_ok.mp hq)).atoms.styled
    exact List.forall_mem_cons.mpr ⟨trivial, hfilter⟩

/-- What is emitted for a change is written in the style of its dialect. -/
theorem styled_of_emits {change : RelationChange} {s : Statement} (h : x.Emits change s) :
    s.Styled x.env.dialect := by
  cases h with
  | insert => exact fun _ hp => absurd hp List.not_mem_nil
  | insertUnless _ _ hp | attach hp | detach hp | update _ _ _ hp | delete hp =>
    exact List.forall_mem_singleton.mpr (styled_of_pick hp)
  | detachAll =>
    exact List.forall_mem_singleton.mpr (List.forall_mem_singleton.mpr trivial)

end NestedScope

/-- In what is compiled, arrays are tested in the style of the dialect. -/
theorem Sql.Statement.CompiledIn.styled {s : Statement} (h : s.CompiledIn env) :
    s.Styled env.dialect := by
  cases h with
  | @query q c h =>
    cases hreads : q.operation.reads with
    | true =>
      obtain ⟨t, plan, ht, hselected⟩ := Query.selectedAs_of_compile hreads h
      rw [ht]
      exact hselected.styled
    | false => exact (Query.writtenAs_of_compile hreads h).styled
  | nested h hs =>
    obtain ⟨w, -, own, hown, hs⟩ := NestedWrite.exists_of_mem_compileAll h hs
    obtain ⟨target, -, hown⟩ := bind_eq_ok.mp hown
    exact NestedScope.styled_of_emits (NestedScope.emits_of_compile hown _ hs)

end

/-! ## The words of a dialect -/

/-- Some statement that is compiled in the dialect is written with the word. -/
def Dialect.Writes (d : Dialect) (k : Keyword) : Prop :=
  ∃ (env : Env) (s : Statement), env.dialect = d ∧ s.CompiledIn env ∧ .word k ∈ s.tokens d

/-- Conditions on readers, with every kind of operator that the dialect has. -/
def readerConditions (d : Dialect) : List Condition :=
  [.isIn "age" (.array [.int 1]), .isNull "age",
    { field := "name", op := .contains, value := .string "a", mode := .insensitive },
    { field := "name", op := .search, value := .string "a" }]
    ++ if d = .sqlite then [] else
      [{ field := "tags", op := .isEmpty, value := .bool true },
        { field := "tags", op := .has, value := .int 1 },
        { field := "tags", op := .hasSome, value := .array [.int 1] }]

/-- Queries whose statements have, clause by clause, what a query can be written with. -/
def readerQueries (d : Dialect) : List Query :=
  [{ model := "Reader", operation := .findMany, filter := .not [.or (readerConditions d)]
     distinct := ["name"], inclusions := [{ relation := "books" }]
     orderBy := [{ field := "name" }, { field := "age", order := .desc }]
     skip := some 1, take := some 1 },
    { model := "Reader", operation := .groupBy, groupBy := ["name"]
      aggregations := [.countAll, { function := .sum, field := "age" },
        { function := .avg, field := "age" }, { function := .min, field := "age" },
        { function := .max, field := "age" }]
      having := .and [(Condition.equals "*" (.int 3)).onAggregate .count] },
    .writing "Reader" .upsert (.upsert ["id"] [("id", .int 1)] [])]

/-- Writes to the books of a reader whose statements have what nested writes are written with. -/
def bookWrites : List NestedWrite :=
  let late : Condition := .equals "late" (.bool true)
  [{ relation := "books", change := .disconnect (.and [late, late]) },
    { relation := "books", change := .connectOrCreate (.and [late]) [("late", .bool true)] },
    { relation := "books", change := .deleteMany {} }]

/-- The statements of these queries and writes. -/
def readerStatements (d : Dialect) : List Statement :=
  let env : Env := { schema := librarySchema, dialect := d }
  ((readerQueries d).flatMap fun q => ((q.compile env).map fun c => [c.statement]).toOption.getD [])
    ++ (NestedWrite.compileAll env "Reader" (.int 7) bookWrites).toOption.getD []

/-- Each of the statements comes from a query or from a nested write. -/
theorem compiledIn_of_readerStatements {d : Dialect} {s : Statement}
    (h : s ∈ readerStatements d) : s.CompiledIn { schema := librarySchema, dialect := d } := by
  rcases List.mem_append.mp h with h | h
  · obtain ⟨q, -, h⟩ := List.mem_flatMap.mp h
    cases hc : q.compile { schema := librarySchema, dialect := d } with
    | ok c =>
      obtain rfl : s = c.statement := by simpa [hc, Except.map, Except.toOption] using h
      exact .query hc
    | error e => simp [hc, Except.map, Except.toOption] at h
  · cases hall : NestedWrite.compileAll { schema := librarySchema, dialect := d } "Reader" (.int 7)
        bookWrites with
    | ok statements =>
      rw [hall] at h
      exact .nested hall h
    | error e =>
      rw [hall] at h
      cases h

/-- The word that a token is. -/
def Sql.Token.word? {α : Type} : Token α → Option Keyword
  | .word k => some k
  | _ => none

/-- Every word that a dialect uses stands in some of the statements. -/
theorem words_of_readerStatements (d : Dialect) :
    ∀ k ∈ Keyword.all, d.uses k = true →
      k ∈ (readerStatements d).flatMap fun s => (s.tokens d).filterMap Token.word? := by
  -- in each dialect the statements are compiled, and every word is looked up among their tokens
  cases d <;> decide +kernel

/-- The words that compiled statements are written with are those that the dialect uses. -/
theorem Dialect.writes_iff (d : Dialect) (k : Keyword) : d.Writes k ↔ d.uses k = true := by
  constructor
  · rintro ⟨env, s, rfl, hs, hk⟩
    exact Statement.speaks hs.styled k hk
  · intro h
    obtain ⟨s, hs, hk⟩ := List.mem_flatMap.mp (words_of_readerStatements d k k.mem_all h)
    obtain ⟨t, ht, hword⟩ := List.mem_filterMap.mp hk
    refine ⟨_, s, rfl, compiledIn_of_readerStatements hs, ?_⟩
    cases t <;> cases hword
    exact ht

/-! ## Names -/

/-- A name reads as itself, a word, exactly where it is left bare. -/
theorem Sql.Lexeme.ofName_eq_word_iff {n : String} :
    Lexeme.ofName n.toList = .word n.toList ↔ isBare n.toList = true := by
  unfold Lexeme.ofName
  by_cases hstar : n.toList = ['*']
  · rw [if_pos hstar, hstar]
    decide
  · rw [if_neg hstar]
    split <;> simp_all

/-- The names of a compiled statement are lexemes of its text. One of them stands there as a word
that statements of the dialect are written with as well, letter case aside, exactly if it is spelled
like a word that the dialect uses and that is missing from the reserved ones; all others that are
spelled like words of the dialect are quoted. -/
theorem bare_word_iff (env : Env) {s : Statement} (h : s.CompiledIn env) :
    ∃ ls, lexemes env.dialect.quote (s.prepare env.dialect).sql.toList = some ls ∧
      (∀ k, .word k ∈ s.tokens env.dialect → env.dialect.uses k = true) ∧
      ∀ n, .name n ∈ s.tokens env.dialect →
        Lexeme.ofName n.toList ∈ ls ∧
          ((Lexeme.ofName n.toList = .word n.toList ∧ ∃ k, env.dialect.Writes k ∧ SameWord n k) ↔
            ∃ k, env.dialect.uses k = true ∧ k.unguarded = true ∧ SameWord n k) := by
  refine ⟨_, lexemes_render env.dialect 0 (s.tokens env.dialect), Statement.speaks h.styled, ?_⟩
  intro n hn
  refine ⟨ofName_mem_lexemesOf hn env.dialect 0, ?_⟩
  rw [Lexeme.ofName_eq_word_iff]
  constructor
  · rintro ⟨hbare, k, hwrites, hsame⟩
    rw [isBare_of_sameWord hsame] at hbare
    exact ⟨k, (env.dialect.writes_iff k).mp hwrites, hbare, hsame⟩
  · rintro ⟨k, huses, hunguarded, hsame⟩
    refine ⟨?_, k, (env.dialect.writes_iff k).mpr huses, hsame⟩
    rw [isBare_of_sameWord hsame, hunguarded]

/-- Items with a description and a place among the others. -/
def itemsEnv : Env :=
  { schema := .ofModels [{ name := "Item", table := "items"
                           fields := [{ name := "id" }, { name := "desc" }, { name := "order" }] }]
    dialect := .postgres }

/-- The items in the falling order of their descriptions. -/
def itemsByDesc : Query :=
  { model := "Item", operation := .findMany, selection := ["desc", "order"]
    orderBy := [{ field := "desc", order := .desc }] }

/-- The column is left bare where the direction is written with the same word. -/
theorem desc_read_twice :
    (∃ c, itemsByDesc.compile itemsEnv = .ok c ∧
        (c.statement.prepare .postgres).sql
          = "SELECT desc, \"order\" FROM items ORDER BY desc DESC" ∧
        .name "desc" ∈ c.statement.tokens .postgres ∧ .word .desc ∈ c.statement.tokens .postgres) ∧
      Dialect.postgres.quoteName "desc" = "desc" ∧ SameWord "desc" .desc ∧
      ¬∀ (env : Env) (s : Statement), s.CompiledIn env →
        ∀ n, .name n ∈ s.tokens env.dialect → env.dialect.quoteName n = n →
          ∀ k, env.dialect.Writes k → ¬SameWord n k := by
  obtain ⟨c, hc⟩ : ∃ c, itemsByDesc.compile itemsEnv = .ok c := ⟨_, rfl⟩
  have htext : (c.statement.prepare .postgres).sql
      = "SELECT desc, \"order\" FROM items ORDER BY desc DESC" := by
    obtain rfl := Except.ok.inj hc
    decide +kernel
  have hname : .name "desc" ∈ c.statement.tokens .postgres := by
    obtain rfl := Except.ok.inj hc
    decide +kernel
  have hword : .word .desc ∈ c.statement.tokens .postgres := by
    obtain rfl := Except.ok.inj hc
    decide +kernel
  have hbare : Dialect.postgres.quoteName "desc" = "desc" := by decide
  have hsame : SameWord "desc" .desc := by decide
  refine ⟨⟨c, hc, htext, hname, hword⟩, hbare, hsame, fun hnever => ?_⟩
  exact hnever itemsEnv c.statement (.query hc) "desc" hname hbare .desc
    ⟨itemsEnv, c.statement, rfl, .query hc, hword⟩ hsame

/-- Items by a column that is spelled like a word of the language, left bare beside that word. -/
theorem bare_word_iff_items :
    ∃ c ls, itemsByDesc.compile itemsEnv = .ok c ∧
      lexemes '"' (c.statement.prepare .postgres).sql.toList = some ls ∧
      (.word "desc".toList ∈ ls ∧ ∃ k, Dialect.postgres.Writes k ∧ SameWord "desc" k) ∧
      .quoted "order".toList ∈ ls ∧ ∃ k, Dialect.postgres.Writes k ∧ SameWord "order" k := by
  obtain ⟨c, hc⟩ : ∃ c, itemsByDesc.compile itemsEnv = .ok c := ⟨_, rfl⟩
  have hnames : .name "desc" ∈ c.statement.tokens .postgres ∧
      .name "order" ∈ c.statement.tokens .postgres := by
    obtain rfl := Except.ok.inj hc
    decide +kernel
  obtain ⟨ls, hls, -, hread⟩ := bare_word_iff itemsEnv (.query hc)
  obtain ⟨hdesc, hiff⟩ := hread "desc" hnames.1
  obtain ⟨hbare, hwrites⟩ := hiff.mpr ⟨.desc, by decide⟩
  obtain ⟨horder, -⟩ := hread "order" hnames.2
  rw [hbare] at hdesc
  have hquoted : Lexeme.ofName "order".toList = .quoted "order".toList := by decide
  rw [hquoted] at horder
  exact ⟨c, ls, hc, hls, ⟨hdesc, hwrites⟩, horder, .order,
    (Dialect.postgres.writes_iff .order).mpr rfl, by decide⟩

end SqlQuery
