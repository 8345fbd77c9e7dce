import Mathlib.Data.List.Forall2
import SqlQuery.Sql.Statement

/-!
# Statements that differ in names and values only

Two statements of one build may hold other names and other values at the same places. A
`Likeness` says how these are related, names by the role they play; the relation goes down
from statements to atoms along their constructors, and the tokens follow it.

> `Statement.Alike.tokens`: statements that are alike are written alike, token by token.

> `Statement.Alike.prepare_eq`: where only values differ, the texts are the same.
-/

namespace SqlQuery.Sql

/-- What a name stands for in a statement. -/
inductive Role where
  | table
  | column
  | qualifier
  | alias
  | output
deriving DecidableEq, Repr

/-- How the names and values of two statements are related. -/
structure Likeness where
  names : Role → String → String → Prop
  values : Value → Value → Prop

/-- Tokens that are the same, or names or slots that are related. -/
inductive Token.Alike (L : Likeness) : Token Value → Token Value → Prop where
  | word (k : Keyword) : Alike L (.word k) (.word k)
  | symbol (s : Symbol) : Alike L (.symbol s) (.symbol s)
  | number (n : Nat) : Alike L (.number n) (.number n)
  | star : Alike L (.name "*") (.name "*")
  | name {r : Role} {n n' : String} : L.names r n n' → Alike L (.name n) (.name n')
  | slot {v v' : Value} : L.values v v' → Alike L (.slot v) (.slot v')

/-- Fragments that are alike token by token. -/
def Written (L : Likeness) : Fragment Value → Fragment Value → Prop :=
  List.Forall₂ (Token.Alike L)

/-! ## Fragments -/

namespace Written

variable {L : Likeness}

theorem nil : Written L [] [] :=
  List.Forall₂.nil

theorem token {t t' : Token Value} (h : t.Alike L t') : Written L [t] [t'] :=
  List.Forall₂.cons h .nil

/-- Fragments whose first tokens and whose rests are alike. -/
theorem cons {t t' : Token Value} {f f' : Fragment Value} (h : t.Alike L t')
    (hf : Written L f f') : Written L (t :: f) (t' :: f') :=
  List.Forall₂.cons h hf

/-- What is written behind fragments that are alike may be alike too. -/
theorem append {f f' g g' : Fragment Value} (hf : Written L f f') (hg : Written L g g') :
    Written L (f ++ g) (f' ++ g') :=
  List.rel_append hf hg

/-- Fragments that are alike in pairs, with the same tokens between them. -/
theorem intercalate {sep : Fragment Value} (hsep : Written L sep sep)
    {fs fs' : List (Fragment Value)} (h : List.Forall₂ (Written L) fs fs') :
    Written L (sep.intercalate fs) (sep.intercalate fs') := by
  induction h with
  | nil => exact .nil
  | @cons f f' fs fs' hf hrest ih =>
    cases hrest with
    | nil => simpa using hf
    | cons hg hrest =>
      rw [List.intercalate_cons_cons, List.intercalate_cons_cons]
      exact (hf.append hsep).append ih

/-- Lists with commas whose members are alike in pairs. -/
theorem commas {fs fs' : List (Fragment Value)} (h : List.Forall₂ (Written L) fs fs') :
    Written L (commas fs) (commas fs') :=
  intercalate (token (.symbol _)) h

theorem joined (k : Keyword) {fs fs' : List (Fragment Value)}
    (h : List.Forall₂ (Written L) fs fs') : Written L (joined k fs) (joined k fs') :=
  intercalate (token (.word k)) h

/-- Calls of one function with arguments that are alike in pairs. -/
theorem call (k : Keyword) {fs fs' : List (Fragment Value)}
    (h : List.Forall₂ (Written L) fs fs') : Written L (call k fs) (call k fs') :=
  (cons (.word k) (cons (.symbol _) (commas h))).append (token (.symbol _))

theorem call_one (k : Keyword) {f f' : Fragment Value} (h : Written L f f') :
    Written L (Sql.call k [f]) (Sql.call k [f']) :=
  call k (.cons h .nil)

/-- What stands in parentheses may be replaced by what is alike. -/
theorem grouped {f f' : Fragment Value} (h : Written L f f') :
    Written L (grouped f) (grouped f') :=
  (cons (.symbol _) h).append (token (.symbol _))

/-- Comparisons by one symbol are alike where both sides are. -/
theorem compared (s : Symbol) {f f' g g' : Fragment Value} (hf : Written L f f')
    (hg : Written L g g') : Written L (compared s f g) (compared s f' g') :=
  hf.append (cons (.symbol s) hg)

/-- Letter case is folded on both sides or on neither. -/
theorem folding (folded : Bool) {f f' : Fragment Value} (h : Written L f f') :
    Written L (folding folded f) (folding folded f') := by
  cases folded with
  | true => exact call_one .lower h
  | false => exact h

/-- A fragment that is written by words, symbols and numbers alone is like itself. -/
theorem words (ks : List Keyword) : Written L (ks.map .word) (ks.map .word) := by
  induction ks with
  | nil => exact .nil
  | cons k ks ih => exact cons (.word k) ih

/-- A clause is written on both sides or left out on both, since fragments that are alike are empty
together. -/
theorem clause (ks : List Keyword) {f f' : Fragment Value} (h : Written L f f') :
    Written L (clause ks f) (clause ks f') := by
  unfold Sql.clause
  cases h with
  | nil => exact .nil
  | cons ht hrest => exact (words ks).append (cons ht hrest)

/-- Lists of one kind that are related element by element are written alike. -/
theorem map {α β : Type} {R : α → β → Prop} {f : α → Fragment Value} {g : β → Fragment Value}
    {as : List α} {bs : List β} (hall : List.Forall₂ R as bs)
    (h : ∀ a b, R a b → Written L (f a) (g b)) :
    List.Forall₂ (Written L) (as.map f) (bs.map g) := by
  rw [List.forall₂_map_left_iff, List.forall₂_map_right_iff]
  exact hall.imp h

theorem slotList {items items' : List Value} (h : List.Forall₂ L.values items items') :
    Written L (slotList items) (slotList items') :=
  commas (map h fun _ _ h => token (.slot h))

/-- Lists of names that are related in pairs, in one role. -/
theorem nameList {r : Role} {names names' : List String}
    (h : List.Forall₂ (L.names r) names names') : Written L (nameList names) (nameList names') :=
  commas (map h fun _ _ h => token (.name h))

end Written

/-! ## Atoms -/

/-- Column references that are alike. -/
structure ColumnRef.Alike (L : Likeness) (c c' : ColumnRef) : Prop where
  qualifier : Option.Rel (L.names .qualifier) c.qualifier c'.qualifier
  column : L.names .column c.column c'.column

/-- Operands that are alike. -/
inductive Operand.Alike (L : Likeness) : Operand → Operand → Prop where
  | column {c c' : ColumnRef} : c.Alike L c' → Alike L (.column c) (.column c')
  | aggregate (f : AggregateFunction) {c c' : ColumnRef} : c.Alike L c' →
      Alike L (.aggregate f c) (.aggregate f c')

/-- Tests of array columns that are alike. -/
inductive ArrayTest.Alike (L : Likeness) : ArrayTest → ArrayTest → Prop where
  | empty (expected : Bool) : Alike L (.empty expected) (.empty expected)
  | has {v v' : Value} : L.values v v' → Alike L (.has v) (.has v')
  | hasEvery {vs vs' : List Value} : List.Forall₂ L.values vs vs' →
      Alike L (.hasEvery vs) (.hasEvery vs')
  | hasSome {vs vs' : List Value} : List.Forall₂ L.values vs vs' →
      Alike L (.hasSome vs) (.hasSome vs')

/-- Atoms that are alike. -/
inductive Atom.Alike (L : Likeness) : Atom → Atom → Prop where
  | compare {lhs lhs' : Operand} (folded : Bool) (op : Comparison) {v v' : Value} :
      lhs.Alike L lhs' → L.values v v' →
      Alike L (.compare lhs folded op v) (.compare lhs' folded op v')
  | sameColumn {a a' b b' : ColumnRef} : a.Alike L a' → b.Alike L b' →
      Alike L (.sameColumn a b) (.sameColumn a' b')
  | null {lhs lhs' : Operand} (expected : Bool) : lhs.Alike L lhs' →
      Alike L (.null lhs expected) (.null lhs' expected)
  | oneOf {lhs lhs' : Operand} (folded expected : Bool) {items items' : List Value} :
      lhs.Alike L lhs' → List.Forall₂ L.values items items' →
      Alike L (.oneOf lhs folded expected items) (.oneOf lhs' folded expected items')
  | like {lhs lhs' : Operand} (folded : Bool) {pattern pattern' : String} :
      lhs.Alike L lhs' → L.values (.string pattern) (.string pattern') →
      Alike L (.like lhs folded pattern) (.like lhs' folded pattern')
  | array (style : ArrayStyle) {lhs lhs' : Operand} {test test' : ArrayTest} :
      lhs.Alike L lhs' → test.Alike L test' →
      Alike L (.array style lhs test) (.array style lhs' test')
  | search {lhs lhs' : Operand} {query query' : String} :
      lhs.Alike L lhs' → L.values (.string query) (.string query') →
      Alike L (.search lhs query) (.search lhs' query')
  | constant (truth : Bool) : Alike L (.constant truth) (.constant truth)

variable {L : Likeness}

/-- References to related columns are written alike, with a qualifier or without. -/
theorem ColumnRef.Alike.tokens {c c' : ColumnRef} (h : c.Alike L c') :
    Written L c.tokens c'.tokens := by
  obtain ⟨qualifier, column⟩ := c
  obtain ⟨qualifier', column'⟩ := c'
  obtain ⟨hqualifier, hcolumn⟩ := h
  unfold ColumnRef.tokens
  dsimp only at hqualifier hcolumn ⊢
  cases hqualifier with
  | none => exact .token (.name hcolumn)
  | some hname => exact .cons (.name hname) (.cons (.symbol _) (.token (.name hcolumn)))

/-- Operands that are alike name the same function, if they name one. -/
theorem Operand.Alike.tokens {lhs lhs' : Operand} (h : lhs.Alike L lhs') :
    Written L lhs.tokens lhs'.tokens := by
  cases h with
  | column h => exact h.tokens
  | aggregate f h => exact .call_one _ h.tokens

/-- The styles write a column once or twice, but nothing else that could differ. -/
theorem written_isEmpty (s : ArrayStyle) {column column' : Fragment Value}
    (h : Written L column column') : Written L (s.isEmpty column) (s.isEmpty column') := by
  cases s with
  | native =>
    have hlength : Written L (call .arrayLength [column, [.number 1]])
        (call .arrayLength [column', [.number 1]]) :=
      .call _ (.cons h (.cons (.token (.number 1)) .nil))
    exact .compared _ (.call _ (.cons hlength (.cons (.token (.number 0)) .nil)))
      (.token (.number 0))
  | json => exact .compared _ (.call_one _ h) (.token (.number 0))

/-- Tests of one kind with elements that are related in pairs. -/
theorem ArrayTest.Alike.tokens (s : ArrayStyle) {column column' : Fragment Value}
    (hcolumn : Written L column column') {test test' : ArrayTest} (h : test.Alike L test') :
    Written L (test.tokens s column) (test'.tokens s column') := by
  have hnative : ∀ {f f' : Fragment Value}, Written L f f' →
      Written L (SqlQuery.ArrayStyle.nativeArray f) (SqlQuery.ArrayStyle.nativeArray f') :=
    fun hf => (Written.cons (.word _) (.cons (.symbol _) hf)).append (.token (.symbol _))
  have hjson : ∀ (k : Keyword) {f f' : Fragment Value}, Written L f f' →
      Written L (call k [column, call .jsonArray [f]]) (call k [column', call .jsonArray [f']]) :=
    fun k f f' hf => .call k (.cons hcolumn (.cons (.call_one _ hf) .nil))
  cases h with
  | empty expected =>
    cases expected with
    | true => exact written_isEmpty s hcolumn
    | false => exact .cons (.word _) (written_isEmpty s hcolumn).grouped
  | has h =>
    cases s with
    | native => exact .compared _ (.token (.slot h)) (.call_one _ hcolumn)
    | json => exact hjson _ (.token (.slot h))
  | hasEvery h =>
    cases s with
    | native => exact .compared _ hcolumn (hnative (.slotList h))
    | json => exact hjson _ (.slotList h)
  | hasSome h =>
    cases s with
    | native => exact .compared _ hcolumn (hnative (.slotList h))
    | json => exact hjson _ (.slotList h)

/-- A dialect writes all its text searches alike. -/
theorem written_search (d : Dialect) {column column' query query' : Fragment Value}
    (hcolumn : Written L column column') (hquery : Written L query query') :
    Written L (d.search column query) (d.search column' query') := by
  cases d with
  | postgres => exact .compared _ (.call_one _ hcolumn) (.call_one _ hquery)
  | mysql =>
    exact (Written.call_one _ hcolumn).append
      (.call_one _ (hquery.append (.words [.in_, .natural, .language, .mode])))
  | sqlite => exact hcolumn.append (.cons (.word _) hquery)

/-- Atoms of one constructor are written alike where what they hold is related. -/
theorem Atom.Alike.tokens (d : Dialect) {a a' : Atom} (h : a.Alike L a') :
    Written L (a.tokens d) (a'.tokens d) := by
  cases h with
  | compare folded op hlhs hvalue =>
    exact .compared _ (.folding folded hlhs.tokens) (.folding folded (.token (.slot hvalue)))
  | sameColumn ha hb => exact .compared _ ha.tokens hb.tokens
  | null expected hlhs =>
    cases expected with
    | true => exact hlhs.tokens.append (.words [.is, .null])
    | false => exact hlhs.tokens.append (.words [.is, .not, .null])
  | oneOf folded expected hlhs hitems =>
    have hword : Written L (if expected then [.word .in_] else [.word .not, .word .in_])
        (if expected then [.word .in_] else [.word .not, .word .in_]) := by
      cases expected with
      | true => exact .words [.in_]
      | false => exact .words [.not, .in_]
    have hlist := Written.map hitems fun _ _ h => Written.folding folded (.token (.slot h))
    exact ((Written.folding folded hlhs.tokens).append hword).append (.grouped (.commas hlist))
  | like folded hlhs hpattern =>
    exact (Written.folding folded hlhs.tokens).append
      (.cons (.word _) (.folding folded (.token (.slot hpattern))))
  | array style hlhs htest => exact htest.tokens style hlhs.tokens
  | search hlhs hquery => exact written_search d hlhs.tokens (.token (.slot hquery))
  | constant truth => exact .compared _ (.token (.number _)) (.token (.number _))

/-! ## Predicates -/

namespace Predicate

mutual

/-- Predicates that are alike. -/
inductive Alike (L : Likeness) : Predicate → Predicate → Prop where
  | atom {a a' : Atom} : a.Alike L a' → Alike L (.atom a) (.atom a')
  | group {p p' : Predicate} : Alike L p p' → Alike L (.group p) (.group p')
  | not {p p' : Predicate} : Alike L p p' → Alike L (.not p) (.not p')
  | all {ps ps' : List Predicate} : AllAlike L ps ps' → Alike L (.all ps) (.all ps')
  | any {ps ps' : List Predicate} : AllAlike L ps ps' → Alike L (.any ps) (.any ps')

/-- Lists of predicates that are alike one by one. -/
inductive AllAlike (L : Likeness) : List Predicate → List Predicate → Prop where
  | nil : AllAlike L [] []
  | cons {p p' : Predicate} {ps ps' : List Predicate} : Alike L p p' → AllAlike L ps ps' →
      AllAlike L (p :: ps) (p' :: ps')

end

mutual

/-- Predicates of one shape are written alike where their atoms are. -/
theorem Alike.tokens (d : Dialect) :
    ∀ {p p' : Predicate}, p.Alike L p' → Written L (p.tokens d) (p'.tokens d)
  | _, _, .atom h => h.tokens d
  | _, _, .group h => (Alike.tokens d h).grouped
  | _, _, .not h => .cons (.word _) (Alike.tokens d h).grouped
  | _, _, .all h => .joined .and (AllAlike.tokensOf d h)
  | _, _, .any h => .joined .or (AllAlike.tokensOf d h)

theorem AllAlike.tokensOf (d : Dialect) :
    ∀ {ps ps' : List Predicate}, AllAlike L ps ps' →
      List.Forall₂ (Written L) (tokensOf d ps) (tokensOf d ps')
  | _, _, .nil => .nil
  | _, _, .cons h hrest => .cons (Alike.tokens d h) (AllAlike.tokensOf d hrest)

end

/-- Lists of predicates are alike where they are in pairs. -/
theorem allAlike_iff {ps ps' : List Predicate} :
    AllAlike L ps ps' ↔ List.Forall₂ (Alike L) ps ps' := by
  refine ⟨fun h => ?_, fun h => ?_⟩
  · induction ps generalizing ps' with
    | nil => cases h; exact .nil
    | cons p ps ih =>
      cases h with
      | cons hp hrest => exact .cons hp (ih hrest)
  · induction h with
    | nil => exact .nil
    | cons hp _ ih => exact .cons hp ih

/-- What may be missing on both sides, as lists. -/
theorem forall₂_toList {α β : Type} {R : α → β → Prop} {a : Option α} {b : Option β}
    (h : Option.Rel R a b) : List.Forall₂ R a.toList b.toList := by
  cases h with
  | none => exact .nil
  | some h => exact .cons h .nil

/-- Conjunctions of atoms and of a predicate beside them, if there is one. -/
theorem Alike.beside {as as' : List Atom} {p p' : Option Predicate}
    (has : List.Forall₂ (Atom.Alike L) as as') (hp : Option.Rel (Alike L) p p') :
    Alike L (.all (as.map .atom ++ p.toList)) (.all (as'.map .atom ++ p'.toList)) :=
  .all (allAlike_iff.mpr
    (List.rel_append (List.rel_map (fun _ _ h => .atom h) has) (forall₂_toList hp)))

/-- A disjunction of several parts is put in parentheses on both sides or on none. -/
theorem Alike.operand {p p' : Predicate} (h : p.Alike L p') : p.operand.Alike L p'.operand := by
  cases h with
  | any hparts =>
    cases hparts with
    | nil => exact .any .nil
    | cons hp hrest =>
      cases hrest with
      | nil => exact .any (.cons hp .nil)
      | cons hq hrest => exact .group (.any (.cons hp (.cons hq hrest)))
  | atom h => exact .atom h
  | group h => exact .group h
  | not h => exact .not h
  | all h => exact .all h

end Predicate

/-! ## Statements -/

/-- Items of a selection that are alike. -/
inductive SelectItem.Alike (L : Likeness) : SelectItem → SelectItem → Prop where
  | star {q q' : Option String} : Option.Rel (L.names .qualifier) q q' →
      Alike L (.star q) (.star q')
  | column {c c' : ColumnRef} {a a' : Option String} : c.Alike L c' →
      Option.Rel (L.names .output) a a' → Alike L (.column c a) (.column c' a')
  | aggregate (f : AggregateFunction) {c c' : ColumnRef} {a a' : String} : c.Alike L c' →
      L.names .output a a' → Alike L (.aggregate f c a) (.aggregate f c' a')

/-- Ways to drop rows that are alike. -/
inductive Distinct.Alike (L : Likeness) : Distinct → Distinct → Prop where
  | keep : Alike L .keep .keep
  | rows : Alike L .rows .rows
  | on {cs cs' : List ColumnRef} : List.Forall₂ (ColumnRef.Alike L) cs cs' →
      Alike L (.on cs) (.on cs')

/-- Joins that are alike. -/
structure Join.Alike (L : Likeness) (j j' : Join) : Prop where
  table : L.names .table j.table j'.table
  aliasName : L.names .alias j.aliasName j'.aliasName
  on : j.on.Alike L j'.on

/-- Selections that are alike. -/
structure Select.Alike (L : Likeness) (s s' : Select) : Prop where
  distinct : s.distinct.Alike L s'.distinct
  items : List.Forall₂ (SelectItem.Alike L) s.items s'.items
  table : L.names .table s.table s'.table
  joins : List.Forall₂ (Join.Alike L) s.joins s'.joins
  where_ : Option.Rel (Predicate.Alike L) s.where_ s'.where_
  groupBy : List.Forall₂ (ColumnRef.Alike L) s.groupBy s'.groupBy
  having : Option.Rel (Predicate.Alike L) s.having s'.having
  orderBy : List.Forall₂ (fun o o' => o.1.Alike L o'.1 ∧ o.2 = o'.2) s.orderBy s'.orderBy
  limit : s.limit = s'.limit
  offset : s.offset = s'.offset

/-- What columns are set to, where it is alike. -/
inductive Source.Alike (L : Likeness) : Source → Source → Prop where
  | value {v v' : Value} : L.values v v' → Alike L (.value v) (.value v')
  | null : Alike L .null .null
  | proposed : Alike L .proposed .proposed

/-- Assignments that are alike. -/
structure Assignment.Alike (L : Likeness) (a a' : Assignment) : Prop where
  column : L.names .column a.column a'.column
  source : a.source.Alike L a'.source

/-- What to do on a conflict, where it is alike. -/
structure Conflict.Alike (L : Likeness) (c c' : Conflict) : Prop where
  keys : List.Forall₂ (L.names .column) c.keys c'.keys
  assignments : List.Forall₂ (Assignment.Alike L) c.assignments c'.assignments

/-- Statements that are alike. -/
inductive Statement.Alike (L : Likeness) : Statement → Statement → Prop where
  | select {s s' : Select} : s.Alike L s' → Alike L (.select s) (.select s')
  | insert {table table' : String} {columns columns' : List String}
      {rows rows' : List (List Value)} {conflict conflict' : Option Conflict}
      (returning : Bool) :
      L.names .table table table' → List.Forall₂ (L.names .column) columns columns' →
      List.Forall₂ (List.Forall₂ L.values) rows rows' →
      Option.Rel (Conflict.Alike L) conflict conflict' →
      Alike L (.insert table columns rows conflict returning)
        (.insert table' columns' rows' conflict' returning)
  | insertUnless {table table' : String} {columns columns' : List String}
      {row row' : List Value} {p p' : Predicate} :
      L.names .table table table' → List.Forall₂ (L.names .column) columns columns' →
      List.Forall₂ L.values row row' → p.Alike L p' →
      Alike L (.insertUnless table columns row p) (.insertUnless table' columns' row' p')
  | update {table table' : String} {assignments assignments' : List Assignment}
      {p p' : Predicate} (returning : Bool) :
      L.names .table table table' →
      List.Forall₂ (Assignment.Alike L) assignments assignments' → p.Alike L p' →
      Alike L (.update table assignments p returning) (.update table' assignments' p' returning)
  | delete {table table' : String} {p p' : Predicate} (returning : Bool) :
      L.names .table table table' → p.Alike L p' →
      Alike L (.delete table p returning) (.delete table' p' returning)

/-- Items that are alike return columns that are related, under names that are. -/
theorem SelectItem.Alike.tokens {i i' : SelectItem} (h : i.Alike L i') :
    Written L i.tokens i'.tokens := by
  cases h with
  | star hqualifier =>
    cases hqualifier with
    | none => exact .token .star
    | some hname => exact .cons (.name hname) (.cons (.symbol _) (.token .star))
  | column hcolumn halias =>
    refine hcolumn.tokens.append ?_
    cases halias with
    | none => exact .nil
    | some hname => exact .cons (.word _) (.token (.name hname))
  | aggregate f hcolumn halias =>
    exact (Written.call_one _ hcolumn.tokens).append (.cons (.word _) (.token (.name halias)))

/-- Rows that are alike are dropped in the same way. -/
theorem Distinct.Alike.tokens {k k' : Distinct} (h : k.Alike L k') :
    Written L k.tokens k'.tokens := by
  cases h with
  | keep => exact .nil
  | rows => exact .token (.word _)
  | on h =>
    have hcolumns := Written.commas (Written.map h fun _ _ h => h.tokens)
    exact (Written.words [.distinct, .on]).append hcolumns.grouped

/-- Conditions that may be missing are missing together. -/
theorem written_optional (d : Dialect) {p p' : Option Predicate}
    (h : Option.Rel (Predicate.Alike L) p p') : Written L (optional d p) (optional d p') := by
  cases h with
  | none => exact .nil
  | some h => exact h.tokens d

theorem Join.Alike.tokens (d : Dialect) {j j' : Join} (h : j.Alike L j') :
    Written L (j.tokens d) (j'.tokens d) := by
  obtain ⟨htable, halias, hon⟩ := h
  refine Written.append ?_ (hon.tokens d)
  exact .cons (.word _) (.cons (.word _) (.cons (.name htable) (.cons (.word _)
    (.cons (.name halias) (.token (.word _))))))

theorem written_joins (d : Dialect) {js js' : List Join} (h : List.Forall₂ (Join.Alike L) js js') :
    Written L (js.flatMap (·.tokens d)) (js'.flatMap (·.tokens d)) := by
  induction h with
  | nil => exact .nil
  | cons hj _ ih => exact (hj.tokens d).append ih

/-- A page holds numbers only, which are the same on both sides. -/
theorem written_limitOffset (d : Dialect) (limit offset : Option Nat) :
    Written L (d.limitOffset limit offset) (d.limitOffset limit offset) := by
  have hskipped : ∀ n : Nat, Written L [.word .offset, .number n] [.word .offset, .number n] :=
    fun n => .cons (.word _) (.token (.number n))
  cases d <;> cases limit <;> cases offset <;>
    first
    | exact .nil
    | exact hskipped _
    | exact .cons (.word _) (.cons (.number _) .nil)
    | exact .cons (.word _) (.cons (.number _) (hskipped _))
    | exact .cons (.word _) (.cons (.symbol _) (.cons (.number _) (hskipped _)))

theorem Select.Alike.tokens (d : Dialect) {s s' : Select} (h : s.Alike L s') :
    Written L (s.tokens d) (s'.tokens d) := by
  have hitems := Written.commas (Written.map h.items fun _ _ h => h.tokens)
  have hgroup := Written.commas (Written.map h.groupBy fun _ _ h => h.tokens)
  have hentry : ∀ o o' : ColumnRef × SortOrder, o.1.Alike L o'.1 ∧ o.2 = o'.2 →
      Written L (o.1.tokens ++ [.word (.ofOrder o.2)])
        (o'.1.tokens ++ [.word (.ofOrder o'.2)]) := by
    rintro o o' ⟨hcolumn, horder⟩
    rw [horder]
    exact hcolumn.tokens.append (.token (.word _))
  have horder := Written.commas (Written.map h.orderBy hentry)
  have hfrom : Written L [.word .from_, .name s.table] [.word .from_, .name s'.table] :=
    .cons (.word _) (.token (.name h.table))
  have hselect := Written.cons (.word .select) (h.distinct.tokens.append hitems)
  have hpage := written_limitOffset (L := L) d s.limit s.offset
  unfold Select.tokens
  rw [← h.limit, ← h.offset]
  exact ((((((hselect.append hfrom).append (written_joins d h.joins)).append
    (.clause _ (written_optional d h.where_))).append (.clause _ hgroup)).append
    (.clause _ (written_optional d h.having))).append (.clause _ horder)).append hpage

theorem Assignment.Alike.tokens (d : Dialect) {a a' : Assignment} (h : a.Alike L a') :
    Written L (a.tokens d) (a'.tokens d) := by
  obtain ⟨column, source⟩ := a
  obtain ⟨column', source'⟩ := a'
  obtain ⟨hcolumn, hsource⟩ := h
  dsimp only at hcolumn hsource
  have hname : Written L [.name column] [.name column'] := .token (.name hcolumn)
  refine .compared _ hname ?_
  cases hsource with
  | value hv => exact .token (.slot hv)
  | null => exact .token (.word _)
  | proposed =>
    cases d with
    | mysql => exact .call_one _ hname
    | postgres | sqlite => exact .cons (.word _) (.cons (.symbol _) hname)

theorem written_assignmentList (d : Dialect) {as as' : List Assignment}
    (h : List.Forall₂ (Assignment.Alike L) as as') :
    Written L (assignmentList d as) (assignmentList d as') :=
  .commas (Written.map h fun _ _ h => h.tokens d)

/-- What is done on a conflict is alike where keys and assignments are. -/
theorem Conflict.Alike.tokens (d : Dialect) {c c' : Conflict} (h : c.Alike L c') :
    Written L (c.tokens d) (c'.tokens d) := by
  have hkeys := Written.nameList h.keys
  have hassignments := written_assignmentList d h.assignments
  unfold Conflict.tokens
  cases d with
  | mysql => exact (Written.words [.on, .duplicate, .key, .update]).append hassignments
  | postgres | sqlite =>
    exact (((Written.words [.on, .conflict]).append hkeys.grouped).append
      (.words [.do_, .update, .set])).append hassignments

/-- Insertions into related tables and columns start alike. -/
theorem written_insertInto {table table' : String} {columns columns' : List String}
    (htable : L.names .table table table')
    (hcolumns : List.Forall₂ (L.names .column) columns columns') :
    Written L (insertInto table columns) (insertInto table' columns') :=
  (Written.cons (.word _) (.cons (.word _) (.token (.name htable)))).append
    (.grouped (.nameList hcolumns))

theorem written_returning (d : Dialect) (returning : Bool) :
    Written L (returningTokens d returning) (returningTokens d returning) := by
  unfold returningTokens
  split
  · exact .cons (.word _) (.token .star)
  · exact .nil

/-- Guards that look for rows of related tables. -/
theorem written_notExists (d : Dialect) {table table' : String} {p p' : Predicate}
    (htable : L.names .table table table') (h : p.Alike L p') :
    Written L (notExists d table p) (notExists d table' p') := by
  have hselect : Written L [.word .select, .number 1, .word .from_, .name table, .word .where_]
      [.word .select, .number 1, .word .from_, .name table', .word .where_] :=
    .cons (.word _) (.cons (.number _) (.cons (.word _) (.cons (.name htable)
      (.token (.word _)))))
  exact (Written.words [.not, .exists_]).append (.grouped (hselect.append (h.tokens d)))

/-- Statements that are alike are written alike. -/
theorem Statement.Alike.tokens (d : Dialect) {s s' : Statement} (h : s.Alike L s') :
    Written L (s.tokens d) (s'.tokens d) := by
  cases h with
  | select h => exact h.tokens d
  | insert returning htable hcolumns hrows hconflict =>
    have hvalues := Written.commas (Written.map hrows fun _ _ h => (Written.slotList h).grouped)
    refine (((written_insertInto htable hcolumns).append (.cons (.word _) hvalues)).append
      ?_).append (written_returning d returning)
    cases hconflict with
    | none => exact .nil
    | some h => exact h.tokens d
  | insertUnless htable hcolumns hrow hp =>
    have hdual : Written L d.dual d.dual := by
      cases d with
      | mysql => exact .words [.from_, .dual]
      | postgres | sqlite => exact .nil
    exact (((written_insertInto htable hcolumns).append
      (.cons (.word _) (.slotList hrow))).append hdual).append
        (.cons (.word _) (written_notExists d htable hp))
  | update returning htable hassignments hp =>
    have hhead : ∀ {n n' : String}, L.names .table n n' → Written L
        [.word .update, .name n, .word .set] [.word .update, .name n', .word .set] :=
      fun h => .cons (.word _) (.cons (.name h) (.token (.word _)))
    exact (((hhead htable).append (written_assignmentList d hassignments)).append
      (.cons (.word _) (hp.tokens d))).append (written_returning d returning)
  | delete returning htable hp =>
    have hhead : ∀ {n n' : String}, L.names .table n n' → Written L
        [.word .delete, .word .from_, .name n, .word .where_]
        [.word .delete, .word .from_, .name n', .word .where_] :=
      fun h => .cons (.word _) (.cons (.word _) (.cons (.name h) (.token (.word _))))
    exact ((hhead htable).append (hp.tokens d)).append (written_returning d returning)

/-! ## The same names -/

/-- Where names are the same, fragments that are alike are numbered and laid out alike. -/
theorem Written.number_eq (hnames : ∀ r n n', L.names r n n' → n = n') :
    ∀ {f f' : Fragment Value}, Written L f f' → ∀ bound, number bound f = number bound f' := by
  intro f f' h
  induction h with
  | nil => intro bound; rfl
  | cons ht _ ih =>
    intro bound
    cases ht with
    | word k | symbol s | number n | star => simp only [number, ih]
    | name hname =>
      cases hnames _ _ _ hname
      simp only [number, ih]
    | slot _ => simp only [number, ih]

/-- Fragments that are alike bind values that are related in pairs. -/
theorem Written.slots_related {f f' : Fragment Value} (h : Written L f f') :
    List.Forall₂ L.values (slots f) (slots f') := by
  induction h with
  | nil => exact .nil
  | cons ht _ ih =>
    cases ht with
    | slot hv => exact .cons hv ih
    | word k | symbol s | number n | star | name _ => exact ih

/-- Statements that are alike and hold the same names have one text, and as many arguments
as each other. -/
theorem Statement.Alike.prepare_eq (hnames : ∀ r n n', L.names r n n' → n = n') (d : Dialect)
    {s s' : Statement} (h : s.Alike L s') :
    (s.prepare d).sql = (s'.prepare d).sql ∧
      (s.prepare d).args.length = (s'.prepare d).args.length := by
  have hwritten := h.tokens d
  refine ⟨?_, hwritten.slots_related.length_eq⟩
  unfold Statement.prepare Dialect.render
  dsimp only
  rw [hwritten.number_eq hnames 0]

end SqlQuery.Sql
