import SqlQuery.Proofs.Sql.Precedence

/-!
# The words that statements are written with

Most words are written in every dialect. Some belong to clauses or functions of one dialect alone,
or of two. `Dialect.uses` says which are written where, and `Speaks` of a fragment that it holds no
others. The atoms that test arrays are written with the functions of their own style, so that a
statement speaks its dialect where that is the style of the dialect.

A name is left bare unless it is one of the words that are quoted for that, whatever its letter case
is. Not all words that statements are written with are among them.

> `Statement.speaks`: a statement is written with words of its dialect.

> `isBare_of_sameWord`: which names that are spelled like words are left bare.
-/

namespace SqlQuery

open Sql

/-- Whether statements of a dialect are written with a word. -/
def Dialect.uses (d : Dialect) : Keyword → Bool
  | .returning | .any | .array | .coalesce | .arrayLength | .toTsvector | .plaintoTsquery =>
    d == .postgres
  | .dual | .duplicate | .key | .against | .natural | .language | .mode
  | .jsonLength | .jsonContains | .jsonArray | .jsonOverlaps => d == .mysql
  | .conflict | .do_ | .excluded => d != .mysql
  | .match_ => d != .postgres
  | _ => true

namespace Sql

variable {α : Type}

/-- A fragment is written with words of a dialect. -/
def Speaks (d : Dialect) (f : Fragment α) : Prop :=
  ∀ k, .word k ∈ f → d.uses k = true

section

variable {d : Dialect} {f g : Fragment α}

@[simp]
theorem speaks_nil : Speaks d ([] : Fragment α) :=
  fun _ h => absurd h List.not_mem_nil

/-- Two fragments in a row speak a dialect if both do. -/
@[simp]
theorem speaks_append : Speaks d (f ++ g) ↔ Speaks d f ∧ Speaks d g := by
  simp only [Speaks, List.mem_append, or_imp, forall_and]

/-- Only words can belong to another dialect. -/
@[simp]
theorem speaks_word {k : Keyword} : Speaks d (.word k :: f) ↔ d.uses k = true ∧ Speaks d f := by
  simp [Speaks, or_imp, forall_and]

/-- Symbols are the same in all dialects. -/
@[simp]
theorem speaks_symbol {s : Symbol} : Speaks d (.symbol s :: f) ↔ Speaks d f := by
  simp [Speaks]

/-- Names belong to no dialect, whatever they are spelled like. -/
@[simp]
theorem speaks_name {n : String} : Speaks d (.name n :: f) ↔ Speaks d f := by
  simp [Speaks]

/-- Numbers are the same in all dialects. -/
@[simp]
theorem speaks_number {n : Nat} : Speaks d (.number n :: f) ↔ Speaks d f := by
  simp [Speaks]

/-- How a placeholder is written is no matter of words. -/
@[simp]
theorem speaks_slot {a : α} : Speaks d (.slot a :: f) ↔ Speaks d f := by
  simp [Speaks]

/-- Fragments with something between them speak a dialect if each of them does. -/
theorem speaks_intercalate {sep : Fragment α} (hsep : Speaks d sep) :
    ∀ {fs : List (Fragment α)}, Speaks d (sep.intercalate fs) ↔ ∀ f ∈ fs, Speaks d f
  | [] => by simp
  | [f] => by simp
  | f :: g :: fs => by
    rw [List.intercalate_cons_cons, speaks_append, speaks_append, speaks_intercalate hsep,
      List.forall_mem_cons]
    simp [hsep]

@[simp]
theorem speaks_commas {fs : List (Fragment α)} : Speaks d (commas fs) ↔ ∀ f ∈ fs, Speaks d f :=
  speaks_intercalate (by simp)

theorem speaks_joined {k : Keyword} (hk : d.uses k = true) {fs : List (Fragment α)} :
    Speaks d (joined k fs) ↔ ∀ f ∈ fs, Speaks d f :=
  speaks_intercalate (by simpa using hk)

@[simp]
theorem speaks_flatMap {β : Type} {xs : List β} {write : β → Fragment α} :
    Speaks d (xs.flatMap write) ↔ ∀ x ∈ xs, Speaks d (write x) := by
  induction xs with
  | nil => simp
  | cons x xs ih => simp [ih]

/-- A call speaks a dialect that has the function. -/
@[simp]
theorem speaks_call {k : Keyword} {fs : List (Fragment α)} :
    Speaks d (call k fs) ↔ d.uses k = true ∧ ∀ f ∈ fs, Speaks d f := by
  simp [call]

@[simp]
theorem speaks_grouped : Speaks d (grouped f) ↔ Speaks d f := by
  simp [grouped]

/-- A comparison speaks a dialect if both sides do. -/
@[simp]
theorem speaks_compared {s : Symbol} : Speaks d (compared s f g) ↔ Speaks d f ∧ Speaks d g := by
  simp [compared]

/-- Every dialect has the function that folds letter case. -/
@[simp]
theorem speaks_folding {folded : Bool} : Speaks d (folding folded f) ↔ Speaks d f := by
  cases folded <;> simp [folding, Dialect.uses]

/-- A clause is left out where it has no body, so its words are needed only with one. -/
theorem Speaks.clause {ks : List Keyword} (hks : ∀ k ∈ ks, d.uses k = true) (h : Speaks d f) :
    Speaks d (clause ks f) := by
  have hwords : Speaks d (ks.map .word : Fragment α) := by
    intro k hk
    obtain ⟨k', hk', rfl⟩ : ∃ k' ∈ ks, k' = k := by simpa using hk
    exact hks k' hk'
  unfold Sql.clause
  split
  · exact speaks_nil
  · exact speaks_append.mpr ⟨hwords, h⟩

end

/-! ## Atoms and predicates -/

variable {d : Dialect}

/-- A reference to a column is made of names. -/
@[simp]
theorem ColumnRef.speaks (c : ColumnRef) : Speaks d (c.tokens : Fragment α) := by
  unfold ColumnRef.tokens
  cases c.qualifier <;> simp

/-- The functions of aggregates are in all dialects. -/
@[simp]
theorem Operand.speaks (o : Operand) : Speaks d (o.tokens : Fragment α) := by
  cases o with
  | column c => exact c.speaks
  | aggregate f c => cases f <;> simp [tokens, Keyword.ofAggregate, Dialect.uses]

/-- A list of placeholders holds no words. -/
@[simp]
theorem speaks_slotList (items : List Value) : Speaks d (slotList items) := by
  simp [slotList]

/-- Arrays are tested in the style of the dialect. -/
def Atom.Styled (d : Dialect) : Atom → Prop
  | .array style _ _ => d.arrays? = some style
  | _ => True

/-- A test of an array speaks the dialect whose style it is written in. -/
theorem ArrayTest.speaks {style : ArrayStyle} (hstyle : d.arrays? = some style)
    {column : Fragment Value} (hcolumn : Speaks d column) (test : ArrayTest) :
    Speaks d (test.tokens style column) := by
  cases d with
  | postgres =>
    cases hstyle
    cases test with
    | empty expected =>
      cases expected <;> simp [tokens, SqlQuery.ArrayStyle.isEmpty, Dialect.uses, hcolumn]
    | has | hasEvery | hasSome =>
      simp [tokens, SqlQuery.ArrayStyle.has, SqlQuery.ArrayStyle.hasEvery,
        SqlQuery.ArrayStyle.hasSome, SqlQuery.ArrayStyle.nativeArray, Dialect.uses, hcolumn]
  | mysql =>
    cases hstyle
    cases test with
    | empty expected =>
      cases expected <;> simp [tokens, SqlQuery.ArrayStyle.isEmpty, Dialect.uses, hcolumn]
    | has | hasEvery | hasSome =>
      simp [tokens, SqlQuery.ArrayStyle.has, SqlQuery.ArrayStyle.hasEvery,
        SqlQuery.ArrayStyle.hasSome, Dialect.uses, hcolumn]
  | sqlite => cases hstyle

/-- A text search is written with the words of the dialect it is written for. -/
theorem speaks_search (d : Dialect) {column query : Fragment Value} (hcolumn : Speaks d column)
    (hquery : Speaks d query) : Speaks d (d.search column query) := by
  cases d <;> simp [Dialect.search, Dialect.uses, hcolumn, hquery]

/-- Only tests of arrays ask for a style, so all other atoms speak every dialect. -/
theorem Atom.speaks {a : Atom} (h : a.Styled d) : Speaks d (a.tokens d) := by
  cases a with
  | null lhs expected => cases expected <;> simp [tokens, Dialect.uses]
  | oneOf lhs folded expected items => cases expected <;> simp [tokens, Dialect.uses]
  | array style lhs test => exact test.speaks h lhs.speaks
  | search lhs query => exact speaks_search d lhs.speaks (by simp)
  | compare | sameColumn | like | constant => simp [tokens, Dialect.uses]

namespace Predicate

mutual

/-- A predicate is written with words of the dialect where its atoms are. -/
theorem speaks : ∀ p : Predicate, (∀ a ∈ p.atoms, a.Styled d) → Speaks d (p.tokens d)
  | .atom a, h => Atom.speaks (h a (by simp [atoms]))
  | .group p, h => speaks_grouped.mpr (speaks p h)
  | .not p, h => by simpa [tokens, Dialect.uses] using speaks p h
  | .all parts, h => (speaks_joined rfl).mpr (speaks_each parts h)
  | .any parts, h => (speaks_joined rfl).mpr (speaks_each parts h)

theorem speaks_each : ∀ ps : List Predicate, (∀ a ∈ atomsOf ps, a.Styled d) →
    ∀ f ∈ tokensOf d ps, Speaks d f
  | [], _ => by simp [tokensOf]
  | p :: rest, h => by
    rw [atomsOf, List.forall_mem_append] at h
    rw [tokensOf, List.forall_mem_cons]
    exact ⟨speaks p h.1, speaks_each rest h.2⟩

end

end Predicate

/-! ## Statements -/

/-- The conditions that stand in a statement. -/
def Statement.predicates : Statement → List Predicate
  | .select s => s.joins.map (·.on) ++ s.where_.toList ++ s.having.toList
  | .insert .. => []
  | .insertUnless _ _ _ present => [present]
  | .update _ _ p _ | .delete _ p _ => [p]

/-- In the conditions of a statement, arrays are tested in the style of the dialect. -/
def Statement.Styled (d : Dialect) (s : Statement) : Prop :=
  ∀ p ∈ s.predicates, ∀ a ∈ p.atoms, a.Styled d

theorem speaks_optional {p : Option Predicate} (h : ∀ q ∈ p.toList, ∀ a ∈ q.atoms, a.Styled d) :
    Speaks d (optional d p) := by
  cases p with
  | none => exact speaks_nil
  | some p => exact p.speaks (h p (by simp))

/-- Names are given away with AS in all dialects. -/
@[simp]
theorem speaks_aliasTokens (a : Option String) : Speaks d (aliasTokens a : Fragment α) := by
  cases a <;> simp [aliasTokens, Dialect.uses]

@[simp]
theorem SelectItem.speaks (i : SelectItem) : Speaks d (i.tokens : Fragment α) := by
  cases i <;> simp [tokens]

/-- Both ways to drop rows that are alike are written with words of all dialects. -/
@[simp]
theorem Distinct.speaks (x : Distinct) : Speaks d (x.tokens : Fragment α) := by
  cases x <;> simp [tokens, Dialect.uses]

@[simp]
theorem speaks_nameList (names : List String) : Speaks d (nameList names : Fragment α) := by
  simp [nameList]

/-- What an insertion starts with is the same in all dialects. -/
@[simp]
theorem speaks_insertInto (table : String) (columns : List String) :
    Speaks d (insertInto table columns : Fragment α) := by
  simp [insertInto, Dialect.uses]

/-- Written rows are asked for only where the dialect can return them. -/
@[simp]
theorem speaks_returning (returning : Bool) :
    Speaks d (returningTokens d returning : Fragment α) := by
  cases d <;> cases returning <;> simp [returningTokens, Dialect.returnsRows, Dialect.uses]

/-- A page is written with the words of all dialects, in the order of each. -/
@[simp]
theorem speaks_limitOffset (limit offset : Option Nat) :
    Speaks d (d.limitOffset limit offset : Fragment α) := by
  cases d <;> cases limit <;> cases offset <;>
    simp [Dialect.limitOffset, Dialect.noLimit?, Dialect.uses]

/-- A proposed value is referred to in the dialect's own way. -/
@[simp]
theorem Assignment.speaks (a : Assignment) : Speaks d (a.tokens d) := by
  unfold Assignment.tokens
  cases a.source with
  | value v => simp
  | null => simp [Dialect.uses]
  | proposed => cases d <;> simp [Dialect.proposed, Dialect.uses]

@[simp]
theorem speaks_assignmentList (assignments : List Assignment) :
    Speaks d (assignmentList d assignments) := by
  simp [assignmentList]

/-- The clause for conflicts is written in the words of its dialect. -/
@[simp]
theorem Conflict.speaks (c : Conflict) : Speaks d (c.tokens d) := by
  unfold Conflict.tokens
  cases d <;> simp [Dialect.onConflict, Dialect.uses]

/-- A selection speaks the dialect that its conditions are styled for. -/
theorem Select.speaks {s : Select} (h : (Statement.select s).Styled d) :
    Speaks d (s.tokens d) := by
  unfold Statement.Styled Statement.predicates at h
  rw [List.forall_mem_append, List.forall_mem_append, List.forall_mem_map] at h
  obtain ⟨⟨hjoins, hwhere⟩, hhaving⟩ := h
  have hon : ∀ j ∈ s.joins, Speaks d (j.tokens d) := by
    intro j hj
    have hcondition := j.on.speaks (hjoins j hj)
    simp [Join.tokens, Dialect.uses, hcondition]
  have hgroups : Speaks d (commas (s.groupBy.map (·.tokens)) : Fragment Value) := by
    simp
  have horder : Speaks d (commas (s.orderBy.map fun o => o.1.tokens ++ [Token.word (.ofOrder o.2)])
      : Fragment Value) := by
    refine speaks_commas.mpr (List.forall_mem_map.mpr fun o _ => ?_)
    cases o.2 <;> simp [Keyword.ofOrder, Dialect.uses]
  -- a clause is left out where it has no body, so it is known as a whole and not by its tokens
  have hclauses : Speaks d (s.joins.flatMap (·.tokens d)
      ++ clause [.where_] (optional d s.where_)
      ++ clause [.group, .by_] (commas (s.groupBy.map (·.tokens)))
      ++ clause [.having] (optional d s.having)
      ++ clause [.order, .by_]
        (commas (s.orderBy.map fun o => o.1.tokens ++ [Token.word (.ofOrder o.2)]))) := by
    simp only [speaks_append]
    exact ⟨⟨⟨⟨speaks_flatMap.mpr hon, .clause (by simp [Dialect.uses]) (speaks_optional hwhere)⟩,
      .clause (by simp [Dialect.uses]) hgroups⟩,
      .clause (by simp [Dialect.uses]) (speaks_optional hhaving)⟩,
      .clause (by simp [Dialect.uses]) horder⟩
  simp only [speaks_append] at hclauses
  simp [Select.tokens, Dialect.uses, -speaks_flatMap, hclauses]

/-- A statement is written with words of its dialect. -/
theorem Statement.speaks {s : Statement} (h : s.Styled d) : Speaks d (s.tokens d) := by
  cases s with
  | select s => exact Select.speaks h
  | insert table columns rows conflict returning =>
    cases conflict <;> simp [tokens, Dialect.uses]
  | insertUnless table columns row present =>
    have hpresent := present.speaks (h present (by simp [predicates]))
    have hdual : Speaks d (d.dual : Fragment Value) := by
      cases d <;> simp [Dialect.dual, Dialect.uses]
    simp [tokens, notExists, hpresent, hdual, Dialect.uses]
  | update table assignments p returning | delete table p returning =>
    have hp := p.speaks (h p (by simp [predicates]))
    simp [tokens, hp, Dialect.uses]

/-! ## Names that are spelled like words -/

/-- A name is spelled like a word, letter case aside. -/
def SameWord (n : String) (k : Keyword) : Prop :=
  n.toList.map Char.toLower = k.text.toList.map Char.toLower

instance (n : String) (k : Keyword) : Decidable (SameWord n k) :=
  inferInstanceAs (Decidable (_ = _))

/-- Whether a word is missing from those that are quoted when they are names. -/
def Keyword.unguarded : Keyword → Bool
  | .exists_ | .by_ | .asc | .desc | .into | .returning | .conflict | .do_ | .duplicate | .excluded
  | .dual | .against | .natural | .language | .mode | .any | .array | .coalesce | .arrayLength
  | .jsonLength | .jsonContains | .jsonArray | .jsonOverlaps | .toTsvector | .plaintoTsquery
  | .lower | .count | .sum | .avg | .min | .max => true
  | _ => false

/-- The letters that have another letter case in ASCII. -/
def capitals : List Char :=
  "ABCDEFGHIJKLMNOPQRSTUVWXYZ".toList

/-- A character that has a small letter is one of the capitals. -/
theorem toLower_eq_or_mem (c : Char) : c.toLower = c ∨ c ∈ capitals := by
  by_cases hupper : 'A'.val ≤ c.val ∧ c.val ≤ 'Z'.val
  · right
    have hall : ∀ n ∈ List.range' 65 26, Char.ofNat n ∈ capitals := by decide
    have hlow : 65 ≤ c.toNat := UInt32.le_iff_toNat_le.mp hupper.1
    have hhigh : c.toNat ≤ 90 := UInt32.le_iff_toNat_le.mp hupper.2
    rw [← c.ofNat_toNat]
    exact hall c.toNat (List.mem_range'_1.mpr ⟨hlow, by omega⟩)
  · exact Or.inl (dif_neg hupper)

/-- What does not tell a capital letter from the small one does not look at letter case. -/
theorem of_toLower {α : Type} {f : Char → α}
    (h : capitals.map (fun c => f c.toLower) = capitals.map f) (c : Char) : f c.toLower = f c := by
  rcases toLower_eq_or_mem c with hc | hc
  · rw [hc]
  · exact List.map_inj_left.mp h c hc

/-- A letter makes up words in either case. -/
theorem isWordChar_toLower (c : Char) : isWordChar c.toLower = isWordChar c :=
  of_toLower (by decide) c

/-- A letter is no digit in either case. -/
theorem isNumeric_toLower (c : Char) : Text.isNumeric c.toLower = Text.isNumeric c :=
  of_toLower (by decide) c

/-- A capital and its small letter are folded to the same. -/
theorem foldToAscii_toLower (c : Char) : Text.foldToAscii c.toLower = Text.foldToAscii c :=
  of_toLower (by decide) c

/-- Letter case makes no difference to whether a name is left bare. -/
theorem isBare_map_toLower (name : List Char) : isBare (name.map Char.toLower) = isBare name := by
  have hreserved : isReserved (name.map Char.toLower) = isReserved name := by
    simp only [isReserved, List.map_map]
    congr 3
    exact funext foldToAscii_toLower
  have hword : isWordChar ∘ Char.toLower = isWordChar := funext isWordChar_toLower
  rw [isBare, isBare, hreserved, List.all_map, hword, List.head?_map, Option.any_map,
    List.isEmpty_map]
  simp only [isNumeric_toLower]

/-- All words. -/
def Keyword.all : List Keyword :=
  [.select, .distinct, .on, .from_, .dual, .left, .join, .as, .where_, .and, .or, .not, .exists_,
    .group, .by_, .having, .order, .asc, .desc, .limit, .offset, .insert, .into, .values, .update,
    .set, .delete, .returning, .conflict, .do_, .duplicate, .key, .excluded, .null, .is, .in_,
    .like, .match_, .against, .natural, .language, .mode, .any, .array, .coalesce, .arrayLength,
    .jsonLength, .jsonContains, .jsonArray, .jsonOverlaps, .toTsvector, .plaintoTsquery, .lower,
    .count, .sum, .avg, .min, .max]

/-- No word is missing from the list of all words. -/
theorem Keyword.mem_all (k : Keyword) : k ∈ all := by
  cases k <;> decide

/-- The unguarded words are those that are left bare where they are names. -/
theorem Keyword.isBare_text (k : Keyword) : isBare k.text.toList = k.unguarded := by
  have hall : ∀ k ∈ all, isBare k.text.toList = k.unguarded := by decide +kernel
  exact hall k k.mem_all

/-- A name that is spelled like a word is left bare exactly where the word is unguarded. -/
theorem isBare_of_sameWord {n : String} {k : Keyword} (h : SameWord n k) :
    isBare n.toList = k.unguarded := by
  rw [← isBare_map_toLower, h, isBare_map_toLower, k.isBare_text]

end Sql

end SqlQuery
