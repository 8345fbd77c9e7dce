import Mathlib.Data.Finset.Card
import Mathlib.Logic.Function.Iterate
import Mathlib.Order.Bounds.Basic
import Mathlib.Order.Interval.Finset.Nat
import SqlQuery.Proofs.Compile.BoundValues
import SqlQuery.Proofs.Compile.JoinOrder

/-!
# The search for an alias, round by round

An alias is chosen by putting it among those in use: first the candidate itself, then the candidate
with one number after the other, until one of them was not there before. Nothing bounds this search
but the set it goes through. `AliasSearch` is its state, `AliasSearch.round` what one round does.

A round leaves the set as it is, or it is the last one. So every round but the last has met an alias
of its own, and the candidate was met before all of them:

> `AliasSearch.iterate_round`: as long as the numbers are taken, rounds do nothing but count.

> `number_le_card`: the numbers that are taken are fewer than the aliases in use.

> `freshAlias_searched`: the search ends after as many rounds as there are aliases in use, or
> before, with the alias that the joins get.

> `Inclusion.AllJoinedAs.number_le`: so in a query no number grows past the number of its joins.
-/

namespace SqlQuery

/-- How far the choice of an alias has come: the aliases in use, with the number to be tried next or
with the alias that was chosen. -/
inductive AliasSearch where
  | trying (used : Finset String) (n : Nat)
  | chosen (used : Finset String) (aliasName : String)
deriving DecidableEq

namespace AliasSearch

/-- The search after the candidate itself has been put among the aliases in use. -/
def start (used : Finset String) (candidate : String) : AliasSearch :=
  if candidate ∈ used then .trying (insert candidate used) 2
  else .chosen (insert candidate used) candidate

/-- One round: the candidate with the next number is put among the aliases in use. -/
def round (candidate : String) : AliasSearch → AliasSearch
  | .trying used n =>
    if numbered candidate n ∈ used then .trying (insert (numbered candidate n) used) (n + 1)
    else .chosen (insert (numbered candidate n) used) (numbered candidate n)
  | .chosen used aliasName => .chosen used aliasName

variable {used : Finset String} {candidate : String} {n : Nat}

/-- A candidate that is in use sets the search off with the number two. -/
theorem start_of_mem (h : candidate ∈ used) : start used candidate = .trying used 2 := by
  rw [start, if_pos h, Finset.insert_eq_of_mem h]

/-- A candidate that is free is chosen at once. -/
theorem start_of_not_mem (h : candidate ∉ used) :
    start used candidate = .chosen (insert candidate used) candidate :=
  if_neg h

/-- An alias that is in use already changes nothing but the number. -/
theorem round_of_mem (h : numbered candidate n ∈ used) :
    round candidate (.trying used n) = .trying used (n + 1) := by
  rw [round, if_pos h, Finset.insert_eq_of_mem h]

/-- A number that makes the candidate free ends the search. -/
theorem round_of_not_mem (h : numbered candidate n ∉ used) :
    round candidate (.trying used n)
      = .chosen (insert (numbered candidate n) used) (numbered candidate n) :=
  if_neg h

/-- As long as the numbers are taken, rounds do nothing but count. -/
theorem iterate_round (k : Nat) (h : ∀ m, 2 ≤ m → m < 2 + k → numbered candidate m ∈ used) :
    (round candidate)^[k] (.trying used 2) = .trying used (2 + k) := by
  induction k with
  | zero => rfl
  | succ k ih =>
    have hbefore := ih fun m hm hlt => h m hm (by omega)
    rw [Function.iterate_succ_apply', hbefore, round_of_mem (h (2 + k) (by omega) (by omega))]
    rfl

/-- The search ends with the first number that is not taken. -/
theorem iterate_round_of_least (h : IsLeast {m | 2 ≤ m ∧ numbered candidate m ∉ used} n) :
    (round candidate)^[n - 1] (.trying used 2)
      = .chosen (insert (numbered candidate n) used) (numbered candidate n) := by
  obtain ⟨⟨hn, hfree⟩, hleast⟩ := h
  obtain ⟨k, rfl⟩ := Nat.exists_eq_add_of_le hn
  have htaken : ∀ m, 2 ≤ m → m < 2 + k → numbered candidate m ∈ used := by
    intro m hm hlt
    by_contra hfree
    exact absurd (hleast ⟨hm, hfree⟩) (by omega)
  have hrounds : 2 + k - 1 = k + 1 := by omega
  rw [hrounds, Function.iterate_succ_apply', iterate_round k htaken, round_of_not_mem hfree]

end AliasSearch

/-! ## How many numbers can be taken -/

/-- The candidate, and the candidate with the numbers below `n`. -/
def takenBelow (candidate : String) (n : Nat) : Finset String :=
  insert candidate ((Finset.Ico 2 n).image (numbered candidate))

/-- Taken are the candidate and its numbers so far. -/
theorem mem_takenBelow {candidate a : String} {n : Nat} :
    a ∈ takenBelow candidate n ↔
      a = candidate ∨ ∃ m, (2 ≤ m ∧ m < n) ∧ numbered candidate m = a := by
  rw [takenBelow, Finset.mem_insert, Finset.mem_image]
  simp only [Finset.mem_Ico]

/-- Different numbers make different aliases, and none of them is the candidate. -/
theorem card_takenBelow (candidate : String) {n : Nat} (hn : 2 ≤ n) :
    (takenBelow candidate n).card + 1 = n := by
  have hnew : candidate ∉ (Finset.Ico 2 n).image (numbered candidate) := by
    intro hmem
    obtain ⟨m, -, hm⟩ := Finset.mem_image.mp hmem
    exact numbered_ne candidate m hm
  rw [takenBelow, Finset.card_insert_of_notMem hnew,
    Finset.card_image_of_injective _ (numbered_injective candidate), Nat.card_Ico]
  omega

section

variable {used : Finset String} {candidate : String} {n : Nat}

/-- The numbers that are taken are fewer than the aliases in use. -/
theorem number_le_card (hn : 2 ≤ n) (h : takenBelow candidate n ⊆ used) : n ≤ used.card + 1 := by
  have hcard := Finset.card_le_card h
  have htaken := card_takenBelow candidate hn
  omega

/-- An alias in use that is shorter than the candidate takes no number. -/
theorem number_le_card_of_shorter (hn : 2 ≤ n) (h : takenBelow candidate n ⊆ used) {a : String}
    (ha : a ∈ used) (hshort : a.length < candidate.length) : n ≤ used.card := by
  have hother : a ∉ takenBelow candidate n := by
    intro hmem
    rcases mem_takenBelow.mp hmem with rfl | ⟨m, -, rfl⟩
    · omega
    · rw [numbered, String.length_append, String.length_append] at hshort
      omega
  have hcard := Finset.card_le_card (Finset.insert_subset ha h)
  rw [Finset.card_insert_of_notMem hother] at hcard
  have htaken := card_takenBelow candidate hn
  omega

end

/-- A candidate in use gets the least number that is not taken, and all aliases before it are. -/
theorem freshAlias_least {used : List String} {candidate : String} (h : candidate ∈ used) :
    ∃ n, IsLeast {m | 2 ≤ m ∧ numbered candidate m ∉ used} n ∧
      freshAlias used candidate = numbered candidate n ∧
      takenBelow candidate n ⊆ used.toFinset := by
  obtain ⟨n, hrange, hchosen, hfree, htaken⟩ := freshAlias_of_mem h
  have hn := (List.mem_range'_1.mp hrange).1
  refine ⟨n, ⟨⟨hn, hfree⟩, ?_⟩, hchosen, ?_⟩
  · rintro m ⟨hm, hmfree⟩
    by_contra hlt
    exact hmfree (htaken m hm (by omega))
  · intro a ha
    rw [List.mem_toFinset]
    rcases mem_takenBelow.mp ha with rfl | ⟨m, ⟨hm, hlt⟩, rfl⟩
    · exact h
    · exact htaken m hm hlt

namespace Inclusion

/-- The alias of a join is that of its parent with the name of the relation, and no number in it is
larger than there are aliases before it, that of the root among them. -/
theorem AllJoinedAs.number_le {env : Env} {root : JoinParent} {is : List Inclusion}
    {nodes before after : List JoinNode} {n : JoinNode}
    (h : AllJoinedAs env root [root.aliasName] is nodes) (hsplit : nodes = before ++ n :: after) :
    let candidate := n.parent.aliasName ++ "_" ++ n.relation.name
    n.join.aliasName = candidate ∨
      ∃ m, 2 ≤ m ∧ m ≤ before.length + 1 ∧ n.join.aliasName = numbered candidate m := by
  intro candidate
  have hn : n ∈ nodes := by simp [hsplit]
  obtain ⟨hinUse, hcompiled⟩ := h.spec
  rw [(hcompiled n hn).alias_eq]
  by_cases hmem : candidate ∈ n.used
  · obtain ⟨m, hleast, hchosen, htaken⟩ := freshAlias_least hmem
    -- the alias of the parent was in use, and the candidate goes on behind it
    have hparent := List.mem_toFinset.mpr (h.parent_mem (List.mem_singleton_self _) n hn)
    have hshort : n.parent.aliasName.length < candidate.length := by
      have hblank : "_".length = 1 := rfl
      rw [String.length_append, String.length_append]
      omega
    have hbound := number_le_card_of_shorter hleast.1.1 htaken hparent hshort
    have hused : n.used = usedAfter [root.aliasName] before := by
      rw [hsplit] at hinUse
      exact (inUse_append.mp hinUse).2.1
    have hlength : n.used.length = before.length + 1 := by
      rw [hused, usedAfter_singleton, List.length_reverse, List.length_cons, List.length_map]
    have hcard := n.used.toFinset_card_le
    exact Or.inr ⟨m, hleast.1.1, by omega, hchosen⟩
  · exact Or.inl (freshAlias_of_not_mem hmem)

/-- The aliases in use after an inclusion with nothing below it has been joined. -/
theorem used_of_compile_leaf {env : Env} {parent : JoinParent} {depth : Nat}
    {used : List String} {i : Inclusion} {out : JoinPlan × List String} (hleaf : i.nested = [])
    (h : i.compile env parent depth used = .ok out) :
    out.2 = freshAlias used (parent.aliasName ++ "_" ++ i.relation) :: used := by
  obtain ⟨nodes, hnodes, rfl⟩ := joinedAs_of_compile env i parent depth used out h
  obtain ⟨n, rfl, hparent, hused, hi, hn⟩ := hnodes.leaf hleaf
  rw [usedAfter_cons, usedAfter_nil, hn.alias_eq, hparent, hused,
    Schema.relation_name hn.relation_eq, hi]

end Inclusion

/-- The choice of an alias, whatever aliases are in use and whatever the candidate. The search for
it ends after at most as many rounds as there are aliases in use. It gives the candidate where that
is free, else the candidate with the least number from 2 on that makes it free; this number is at
most one more than there are aliases in use, and no more than these where one of them is shorter
than the candidate, as that of the parent is. What is chosen was not in use before, the set in which
the search ends has it and no other alias besides those before, and so have the aliases in use after
an inclusion has been joined under it. -/
theorem freshAlias_searched (used : List String) (candidate : String) :
    (∃ rounds ≤ used.toFinset.card,
      (AliasSearch.round candidate)^[rounds] (.start used.toFinset candidate)
        = .chosen (insert (freshAlias used candidate) used.toFinset) (freshAlias used candidate)) ∧
    (candidate ∉ used → freshAlias used candidate = candidate) ∧
    (candidate ∈ used → ∃ n, IsLeast {m | 2 ≤ m ∧ numbered candidate m ∉ used} n ∧
      freshAlias used candidate = numbered candidate n ∧ n ≤ used.toFinset.card + 1 ∧
      ∀ a ∈ used, a.length < candidate.length → n ≤ used.toFinset.card) ∧
    freshAlias used candidate ∉ used ∧
    ∀ (env : Env) (parent : JoinParent) (depth : Nat) (i : Inclusion)
        (out : JoinPlan × List String),
      i.nested = [] → parent.aliasName ++ "_" ++ i.relation = candidate →
        i.compile env parent depth used = .ok out → out.2 = freshAlias used candidate :: used := by
  refine ⟨?_, freshAlias_of_not_mem, ?_, freshAlias_not_mem used candidate, ?_⟩
  · by_cases hmem : candidate ∈ used
    · obtain ⟨n, hleast, hchosen, htaken⟩ := freshAlias_least hmem
      have hbound := number_le_card hleast.1.1 htaken
      refine ⟨n - 1, by omega, ?_⟩
      rw [AliasSearch.start_of_mem (List.mem_toFinset.mpr hmem), hchosen]
      simp only [← List.mem_toFinset] at hleast
      exact AliasSearch.iterate_round_of_least hleast
    · refine ⟨0, Nat.zero_le _, ?_⟩
      rw [freshAlias_of_not_mem hmem]
      exact AliasSearch.start_of_not_mem (by rwa [List.mem_toFinset])
  · intro hmem
    obtain ⟨n, hleast, hchosen, htaken⟩ := freshAlias_least hmem
    refine ⟨n, hleast, hchosen, number_le_card hleast.1.1 htaken, ?_⟩
    intro a ha hshort
    exact number_le_card_of_shorter hleast.1.1 htaken (List.mem_toFinset.mpr ha) hshort
  · rintro env parent depth i out hleaf rfl h
    exact Inclusion.used_of_compile_leaf hleaf h

/-- The books of readers are joined again where relations whose own names end in numbers took some
of the aliases. -/
theorem freshAlias_searched_again :
    let used := ["r_books_3", "r_books_5", "r_books_2", "r_books", "r"]
    let env : Env := { schema := librarySchema, dialect := .sqlite }
    "r_books" ∈ used ∧ freshAlias used "r_books" = "r_books_4" ∧
      IsLeast {m | 2 ≤ m ∧ numbered "r_books" m ∉ used} 4 ∧
      (∃ rounds ≤ 5, (AliasSearch.round "r_books")^[rounds] (.start used.toFinset "r_books")
        = .chosen (insert "r_books_4" used.toFinset) "r_books_4") ∧
      ∃ out, Inclusion.compile env { model := "Reader", aliasName := "r" } 1 used
          { relation := "books" } = .ok out ∧ out.2 = "r_books_4" :: used := by
  intro used env
  have hmem : "r_books" ∈ used := by decide
  have hchosen : freshAlias used "r_books" = "r_books_4" := by decide
  obtain ⟨out, hout⟩ : ∃ out, Inclusion.compile env { model := "Reader", aliasName := "r" } 1 used
      { relation := "books" } = .ok out := ⟨_, rfl⟩
  obtain ⟨⟨rounds, hrounds, hend⟩, -, hnumber, -, hgrows⟩ := freshAlias_searched used "r_books"
  obtain ⟨n, hleast, hn, -⟩ := hnumber hmem
  have hfour : n = 4 := numbered_injective "r_books" (hn.symm.trans hchosen)
  have hused := hgrows env _ 1 _ out rfl rfl hout
  rw [hchosen] at hend hused
  exact ⟨hmem, hchosen, hfour ▸ hleast, ⟨rounds, hrounds, hend⟩, out, hout, hused⟩

end SqlQuery
