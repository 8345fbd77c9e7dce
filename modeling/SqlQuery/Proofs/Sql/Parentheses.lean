import Mathlib.Data.List.Chain
import SqlQuery.Proofs.Sql.Precedence

/-!
# Parentheses that hold something

A list between parentheses is only written where it has an item, and a group only
around a predicate, so no text of a predicate holds a pair of parentheses with
nothing between them. `Filled` says how such a text is built, and one induction over
it is enough:

> `Filled.not_empty_pair`: in the text of a filled fragment no parenthesis that opens
> is followed at once by one that closes.

> `Predicate.FitsAt.filled`: a predicate is filled if its atoms list something.
-/

namespace SqlQuery.Sql

/-- Whether a token is a parenthesis. -/
def Token.isParenthesis {α : Type} : Token α → Bool
  | .symbol s => s.text == "(" || s.text == ")"
  | _ => false

/-- A fragment in which parentheses come in pairs and every pair holds something. -/
inductive Filled {α : Type} : Fragment α → Prop where
  | token {t : Token α} : t.isParenthesis = false → Filled [t]
  | append {f g : Fragment α} : Filled f → Filled g → Filled (f ++ g)
  | enclosed {s : Symbol} {f : Fragment α} :
      s.text = "(" → Filled f → Filled (.symbol s :: f ++ [.symbol .close])

/-! ## Lexemes -/

/-- Some lexemes neither begin inside a pair of parentheses nor end inside one, and no
pair among them is empty. -/
structure Enclosing (ls : List Lexeme) : Prop where
  ne_nil : ls ≠ []
  head : ls.head? ≠ some (.mark ')')
  last : ls.getLast? ≠ some (.mark '(')
  chain : ls.IsChain fun a b => ¬(a = .mark '(' ∧ b = .mark ')')

/-- Lexemes without parentheses hold no pair of them. -/
theorem Enclosing.of_plain {ls : List Lexeme} (hne : ls ≠ [])
    (h : ∀ l ∈ ls, l ≠ .mark '(' ∧ l ≠ .mark ')') : Enclosing ls where
  ne_nil := hne
  head he := (h _ (List.mem_of_head? he)).2 rfl
  last he := (h _ (List.mem_of_getLast? he)).1 rfl
  chain := by
    induction ls with
    | nil => exact .nil
    | cons l ls ih =>
      cases ls with
      | nil => exact .singleton l
      | cons m ls =>
        have hl := h l (List.mem_cons_self ..)
        have hrest := ih (by simp) fun x hx => h x (List.mem_cons_of_mem _ hx)
        exact List.isChain_cons_cons.mpr ⟨fun hpair => hl.1 hpair.1, hrest⟩

/-- No empty pair comes about between two parts that are closed in themselves. -/
theorem Enclosing.append {ls ms : List Lexeme} (h : Enclosing ls) (h' : Enclosing ms) :
    Enclosing (ls ++ ms) where
  ne_nil := by simp [h.ne_nil]
  head := by
    rw [List.head?_append_of_ne_nil _ h.ne_nil]
    exact h.head
  last := by
    rw [List.getLast?_append_of_ne_nil _ h'.ne_nil]
    exact h'.last
  chain := by
    refine List.isChain_append.mpr ⟨h.chain, h'.chain, ?_⟩
    rintro a ha b hb ⟨rfl, -⟩
    exact h.last ha

/-- Around something, a pair of parentheses is not empty. -/
theorem Enclosing.enclosed {ls : List Lexeme} (h : Enclosing ls) :
    Enclosing (.mark '(' :: ls ++ [.mark ')']) where
  ne_nil := by simp
  head := by simp
  last := by
    rw [List.getLast?_append_of_ne_nil _ (by simp)]
    simp
  chain := by
    have hopen : (Lexeme.mark '(' :: ls).IsChain fun a b => ¬(a = .mark '(' ∧ b = .mark ')') := by
      refine List.isChain_cons.mpr ⟨?_, h.chain⟩
      rintro b hb ⟨-, rfl⟩
      exact h.head hb
    refine List.isChain_append.mpr ⟨hopen, .singleton _, ?_⟩
    rintro a ha b - ⟨rfl, -⟩
    rw [List.getLast?_cons_of_ne_nil h.ne_nil] at ha
    exact h.last ha

/-- The lexemes of a token other than a parenthesis. -/
theorem enclosing_token {α : Type} (d : Dialect) (bound : Nat) {t : Token α}
    (h : t.isParenthesis = false) : Enclosing (lexemesOf d bound [t]) := by
  have hsingle : ∀ l : Lexeme, l ≠ .mark '(' → l ≠ .mark ')' → Enclosing [l] := by
    intro l hopen hclose
    refine .of_plain (by simp) ?_
    intro l' hl'
    rw [List.mem_singleton.mp hl']
    exact ⟨hopen, hclose⟩
  cases t with
  | word k => exact hsingle _ (by simp) (by simp)
  | number n => exact hsingle _ (by simp) (by simp)
  | slot a => exact hsingle _ (by simp) (by simp)
  | name n =>
    refine hsingle (.ofName n.toList) ?_ ?_ <;> unfold Lexeme.ofName <;> split <;>
      (try split) <;> simp
  | symbol s =>
    have hmarks : (s.text == "(" || s.text == ")") = false →
        s.text.toList.map Lexeme.mark ≠ [] ∧
          ∀ l ∈ s.text.toList.map Lexeme.mark, l ≠ .mark '(' ∧ l ≠ .mark ')' := by
      cases s <;> decide
    obtain ⟨hne, hplain⟩ := hmarks h
    have hlexemes : lexemesOf d bound [Token.symbol (α := α) s] = s.text.toList.map Lexeme.mark :=
      List.append_nil _
    rw [hlexemes]
    exact .of_plain hne hplain

/-- A filled fragment is read without empty parentheses. -/
theorem Filled.enclosing {α : Type} (d : Dialect) {f : Fragment α} (h : Filled f) :
    ∀ bound, Enclosing (lexemesOf d bound f) := by
  induction h with
  | token ht => intro bound; exact enclosing_token d bound ht
  | append _ _ ihf ihg =>
    intro bound
    rw [lexemesOf_append]
    exact (ihf bound).append (ihg _)
  | @enclosed s f hs _ ih =>
    intro bound
    have htext : s.text.toList.map Lexeme.mark = [.mark '('] := by rw [hs]; decide
    have hsymbol : lexemesOf d bound (.symbol s :: f ++ [.symbol .close])
        = s.text.toList.map Lexeme.mark ++ lexemesOf d bound (f ++ [.symbol .close]) := rfl
    rw [hsymbol, htext, lexemesOf_append]
    exact (ih bound).enclosed

/-- A filled fragment has a text. -/
theorem Filled.render_ne_empty {α : Type} {f : Fragment α} (h : Filled f) (d : Dialect)
    (bound : Nat) : d.render bound f ≠ "" := by
  intro hempty
  have hread := lexemes_render d bound f
  rw [hempty] at hread
  exact (h.enclosing d bound).ne_nil (Option.some.inj hread).symm

/-- No parenthesis that opens is followed at once by one that closes. -/
theorem Filled.not_empty_pair {α : Type} {f : Fragment α} (h : Filled f) (d : Dialect)
    (bound : Nat) : ¬[Lexeme.mark '(', .mark ')'] <:+: lexemesOf d bound f := by
  rintro ⟨before, after, hpair⟩
  have hchain := (h.enclosing d bound).chain
  rw [← hpair, List.append_assoc] at hchain
  exact (List.isChain_append_cons_cons.mp hchain).2.1 ⟨rfl, rfl⟩

/-! ## Fragments -/

/-- A token that is no parenthesis may stand in front. -/
theorem Filled.cons {α : Type} {t : Token α} {f : Fragment α} (ht : t.isParenthesis = false)
    (h : Filled f) : Filled (t :: f) :=
  .append (.token ht) h

/-- A token that is no parenthesis may stand behind. -/
theorem Filled.concat {α : Type} {t : Token α} {f : Fragment α} (h : Filled f)
    (ht : t.isParenthesis = false) : Filled (f ++ [t]) :=
  .append h (.token ht)

theorem Filled.grouped {α : Type} {f : Fragment α} (h : Filled f) : Filled (grouped f) :=
  .enclosed rfl h

/-- Fragments with a separator between them, of which there is at least one. -/
theorem Filled.intercalate {α : Type} {t : Token α} (ht : t.isParenthesis = false) :
    ∀ {fs : List (Fragment α)}, fs ≠ [] → (∀ f ∈ fs, Filled f) →
      Filled ([t].intercalate fs) := by
  intro fs
  induction fs with
  | nil => intro hne; exact absurd rfl hne
  | cons f fs ih =>
    intro _ h
    have hf := h f (List.mem_cons_self ..)
    cases fs with
    | nil => simpa using hf
    | cons g fs =>
      have hrest := ih (by simp) fun x hx => h x (List.mem_cons_of_mem _ hx)
      rw [List.intercalate_cons_cons]
      exact (hf.concat ht).append hrest

/-- A list that has a member is filled if its members are. -/
theorem Filled.commas {α : Type} {fs : List (Fragment α)} (hne : fs ≠ [])
    (h : ∀ f ∈ fs, Filled f) : Filled (commas fs) :=
  .intercalate rfl hne h

theorem Filled.call {α : Type} (k : Keyword) {fs : List (Fragment α)} (hne : fs ≠ [])
    (h : ∀ f ∈ fs, Filled f) : Filled (call k fs) :=
  .cons rfl (.enclosed rfl (.commas hne h))

theorem Filled.compared {α : Type} {s : Symbol} {f g : Fragment α}
    (hs : (Token.symbol (α := α) s).isParenthesis = false) (hf : Filled f) (hg : Filled g) :
    Filled (compared s f g) :=
  .append hf (.cons hs hg)

/-- Folding letter case puts parentheses around something. -/
theorem Filled.folding {α : Type} (folded : Bool) {f : Fragment α} (h : Filled f) :
    Filled (folding folded f) := by
  cases folded with
  | true => exact .call .lower (by simp) (by simpa using h)
  | false => exact h

theorem Filled.slot {α : Type} (a : α) : Filled [Token.slot a] :=
  .token rfl

/-- A list of placeholders is filled if there is one. -/
theorem Filled.slotList {items : List Value} (hne : items ≠ []) : Filled (slotList items) := by
  refine .commas (by simpa using hne) ?_
  intro f hf
  obtain ⟨v, -, rfl⟩ := List.mem_map.mp hf
  exact .slot v

theorem ColumnRef.filled {α : Type} (c : ColumnRef) : Filled (c.tokens (α := α)) := by
  unfold ColumnRef.tokens
  split
  · exact .cons rfl (.cons rfl (.token rfl))
  · exact .token rfl

/-- An operand is something, and an aggregate encloses its column. -/
theorem Operand.filled {α : Type} (o : Operand) : Filled (o.tokens (α := α)) := by
  cases o with
  | column c => exact c.filled
  | aggregate f c => exact .call _ (by simp) (by simpa using c.filled)

/-! ## Atoms and predicates -/

/-- Where an atom lists items, there is at least one. -/
def Atom.HasItems : Atom → Prop
  | .oneOf _ _ _ items => items ≠ []
  | .array _ _ (.hasEvery elements) => elements ≠ []
  | .array _ _ (.hasSome elements) => elements ≠ []
  | _ => True

/-- Whether an array is empty is asked with the column in the parentheses. -/
theorem ArrayStyle.filled_isEmpty {α : Type} (s : ArrayStyle) {column : Fragment α}
    (h : Filled column) : Filled (s.isEmpty column) := by
  have hnumber : ∀ n, Filled [Token.number (α := α) n] := fun n => .token rfl
  cases s with
  | native =>
    have hlength : Filled (call .arrayLength [column, [.number 1]]) :=
      .call _ (by simp) (by simp [h, hnumber])
    have hcoalesce :
        Filled (call .coalesce [call .arrayLength [column, [.number 1]], [.number 0]]) :=
      .call _ (by simp) (by simp [hlength, hnumber])
    exact .compared rfl hcoalesce (hnumber 0)
  | json => exact .compared rfl (.call _ (by simp) (by simpa using h)) (hnumber 0)

/-- A test of an array is filled if it lists an element where it lists any. -/
theorem ArrayTest.filled (s : ArrayStyle) {column : Fragment Value} (hcolumn : Filled column)
    {lhs : Operand} (test : ArrayTest) (h : (Atom.array s lhs test).HasItems) :
    Filled (test.tokens s column) := by
  have hnative : ∀ {f : Fragment Value}, Filled f → Filled (SqlQuery.ArrayStyle.nativeArray f) :=
    fun hf => .cons rfl (.cons rfl (hf.concat rfl))
  have hjson : ∀ {f : Fragment Value} (k : Keyword), Filled f →
      Filled (call k [column, call .jsonArray [f]]) := by
    intro f k hf
    have hitems : Filled (call .jsonArray [f]) := .call _ (by simp) (by simpa using hf)
    exact .call _ (by simp) (by simp [hcolumn, hitems])
  cases test with
  | empty expected =>
    cases expected with
    | true => exact ArrayStyle.filled_isEmpty s hcolumn
    | false => exact .cons rfl (ArrayStyle.filled_isEmpty s hcolumn).grouped
  | has element =>
    cases s with
    | native => exact .compared rfl (.slot element) (.call _ (by simp) (by simpa using hcolumn))
    | json => exact hjson _ (.slot element)
  | hasEvery elements =>
    cases s with
    | native => exact .compared rfl hcolumn (hnative (.slotList h))
    | json => exact hjson _ (.slotList h)
  | hasSome elements =>
    cases s with
    | native => exact .compared rfl hcolumn (hnative (.slotList h))
    | json => exact hjson _ (.slotList h)

/-- A text search has the column and the placeholder in its parentheses. -/
theorem filled_search (d : Dialect) {column query : Fragment Value} (hcolumn : Filled column)
    (hquery : Filled query) : Filled (d.search column query) := by
  cases d with
  | postgres =>
    exact .compared rfl (.call _ (by simp) (by simpa using hcolumn))
      (.call _ (by simp) (by simpa using hquery))
  | mysql =>
    have hmode : Filled
        (query ++ [Token.word .in_, .word .natural, .word .language, .word .mode]) :=
      .append hquery (.cons rfl (.cons rfl (.cons rfl (.token rfl))))
    exact .append (.call _ (by simp) (by simpa using hcolumn))
      (.call _ (by simp) (by simpa using hmode))
  | sqlite => exact .append hcolumn (.cons rfl hquery)

/-- An atom is filled if it lists an item where it lists any. -/
theorem Atom.filled (d : Dialect) {a : Atom} (h : a.HasItems) : Filled (a.tokens d) := by
  cases a with
  | compare lhs folded op value =>
    exact .compared (by cases op <;> rfl) (.folding _ lhs.filled) (.folding _ (.slot value))
  | sameColumn a b => exact .compared rfl a.filled b.filled
  | null lhs expected =>
    cases expected with
    | true => exact .append lhs.filled (.cons rfl (.token rfl))
    | false => exact .append lhs.filled (.cons rfl (.cons rfl (.token rfl)))
  | oneOf lhs folded expected items =>
    have hword : Filled (α := Value)
        (if expected then [.word .in_] else [.word .not, .word .in_]) := by
      cases expected with
      | true => exact .token rfl
      | false => exact .cons rfl (.token rfl)
    have hitems : Filled (commas (items.map fun v => Sql.folding folded [.slot v])) := by
      refine .commas (by simpa [Atom.HasItems] using h) ?_
      intro f hf
      obtain ⟨v, -, rfl⟩ := List.mem_map.mp hf
      exact .folding _ (.slot v)
    exact .append (.append (.folding _ lhs.filled) hword) hitems.grouped
  | like lhs folded pattern =>
    exact .append (.folding _ lhs.filled) (.cons rfl (.folding _ (.slot _)))
  | search lhs query => exact filled_search d lhs.filled (.slot _)
  | constant truth => exact .compared rfl (.token rfl) (.token rfl)
  | array style lhs test => exact ArrayTest.filled style lhs.filled test h

namespace Predicate

/-- A predicate that fits is filled if its atoms are. -/
theorem FitsAt.filled {place : Place} {p : Predicate} (h : p.FitsAt place) (d : Dialect)
    (hitems : ∀ a ∈ p.atoms, a.HasItems) : Filled (p.tokens d) := by
  -- the parts of a conjunction and of a disjunction are filled one by one
  have hparts : ∀ {k : Keyword} {q : Predicate} {rest : List Predicate},
      (∀ r ∈ q :: rest, (∀ a ∈ r.atoms, a.HasItems) → Filled (r.tokens d)) →
      (∀ a ∈ atomsOf (q :: rest), a.HasItems) →
        Filled (joined k (tokensOf d (q :: rest))) := by
    intro k q rest ih hitems
    rw [tokensOf_eq]
    refine .intercalate rfl (by simp) ?_
    intro f hf
    obtain ⟨r, hr, rfl⟩ := List.mem_map.mp hf
    refine ih r hr fun a ha => hitems a ?_
    rw [atomsOf_eq]
    exact List.mem_flatMap.mpr ⟨r, hr, ha⟩
  induction h with
  | atom a => exact Atom.filled d (hitems a (List.mem_singleton_self a))
  | group _ ih => exact (ih hitems).grouped
  | not _ ih => exact .cons rfl (ih hitems).grouped
  | all _ ih => exact hparts ih hitems
  | one _ ih => exact hparts (by simpa using ih) hitems
  | any _ ih => exact hparts ih hitems
  | alone _ ih => exact ih hitems

end Predicate

end SqlQuery.Sql
