import Mathlib.Data.List.Nodup
import Mathlib.Data.List.Perm.Subperm
import SqlQuery.Compile.Join

/-!
# Aliases that nothing else has

A relation that is joined twice would get one alias twice, and so would two relations whose
paths are spelled alike; the second one gets a number. The search for a number goes through
as many numbers as there are aliases in use. All of them make different aliases, and the
candidate without a number is in use as well, so one of them is left:

> `freshAlias_of_mem`: a candidate in use gets the smallest number that makes it unique.

> `freshAlias_not_mem`: the alias that is chosen was not in use.
-/

namespace SqlQuery

variable {used : List String} {candidate : String}

/-- Different numbers give different aliases. -/
theorem numbered_injective (candidate : String) : Function.Injective (numbered candidate) := by
  intro m n h
  have htext : toString m = toString n := (String.append_right_inj (candidate ++ "_")).mp h
  have hdigits : Nat.toDigits 10 m = Nat.toDigits 10 n := by
    simpa only [Nat.toString_eq_repr, Nat.toList_repr] using congrArg String.toList htext
  have hread := congrArg (fun digits => Nat.ofDigitChars 10 digits 0) hdigits
  simpa only [Nat.ofDigitChars_toDigits (b := 10) (by decide) (by decide)] using hread

/-- No number gives the candidate itself. -/
theorem numbered_ne (candidate : String) (n : Nat) : numbered candidate n ≠ candidate := by
  intro h
  have hlength := congrArg String.length h
  simp only [numbered, String.length_append] at hlength
  have hblank : "_".length = 1 := rfl
  omega

/-- One of as many numbers as there are aliases in use makes the candidate unique. -/
theorem exists_number_not_mem (h : candidate ∈ used) :
    ∃ n ∈ List.range' 2 used.length, numbered candidate n ∉ used := by
  by_contra hnone
  have hall : ∀ n ∈ List.range' 2 used.length, numbered candidate n ∈ used := by
    intro n hn
    by_contra hfree
    exact hnone ⟨n, hn, hfree⟩
  -- the candidate and its numbered forms are one more than the aliases in use
  have hnodup : (candidate :: (List.range' 2 used.length).map (numbered candidate)).Nodup := by
    refine List.nodup_cons.mpr ⟨?_, (List.nodup_range' 1).map (numbered_injective candidate)⟩
    intro hmem
    obtain ⟨n, -, hn⟩ := List.mem_map.mp hmem
    exact numbered_ne candidate n hn
  have hsub : candidate :: (List.range' 2 used.length).map (numbered candidate) ⊆ used := by
    refine List.cons_subset.mpr ⟨h, ?_⟩
    intro a ha
    obtain ⟨n, hn, rfl⟩ := List.mem_map.mp ha
    exact hall n hn
  have hlength := (List.subperm_of_subset hnodup hsub).length_le
  rw [List.length_cons, List.length_map, List.length_range'] at hlength
  omega

/-- A candidate that is free is taken without a number. -/
theorem freshAlias_of_not_mem (h : candidate ∉ used) : freshAlias used candidate = candidate :=
  if_neg h

/-- A candidate in use gets the smallest number that makes it unique. -/
theorem freshAlias_of_mem (h : candidate ∈ used) :
    ∃ n ∈ List.range' 2 used.length,
      freshAlias used candidate = numbered candidate n ∧ numbered candidate n ∉ used ∧
        ∀ m, 2 ≤ m → m < n → numbered candidate m ∈ used := by
  obtain ⟨k, hk, hfree⟩ := exists_number_not_mem h
  unfold freshAlias
  rw [if_pos h]
  cases hfound : (List.range' 2 used.length).find? fun n => numbered candidate n ∉ used with
  | none => exact absurd hfree (by simpa using List.find?_eq_none.mp hfound k hk)
  | some n =>
    obtain ⟨hn, hmem, hsmaller⟩ := List.find?_range'_eq_some.mp hfound
    refine ⟨n, hmem, rfl, by simpa using hn, ?_⟩
    intro m hm hlt
    simpa using hsmaller m hm hlt

/-- The alias that is chosen was not in use. -/
theorem freshAlias_not_mem (used : List String) (candidate : String) :
    freshAlias used candidate ∉ used := by
  by_cases h : candidate ∈ used
  · obtain ⟨n, -, heq, hfree, -⟩ := freshAlias_of_mem h
    rw [heq]
    exact hfree
  · rw [freshAlias_of_not_mem h]
    exact h

end SqlQuery
