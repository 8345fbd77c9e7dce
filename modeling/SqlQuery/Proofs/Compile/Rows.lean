import Mathlib.Data.List.Nodup
import SqlQuery.Compile.Write
import SqlQuery.Proofs.Compile.Outcome

/-!
# Rows whose fields are distinct

A row is a list of fields, and nothing in the list keeps a field from standing in it
twice; the compiler refuses such a row before it looks anything up. Where it did not,
the fields are distinct and looking them up one by one gives the row back.

> `Row.repeatedField?_eq_none_iff`: no field is reported exactly where none repeats.

> `Row.inOrder_fields`: the values in the row's own order are its values.
-/

namespace SqlQuery

/-- No text is reported where none repeats, neither in the list nor of those before. -/
theorem firstRepeat_eq_none_iff :
    ∀ (texts seen : List String),
      firstRepeat seen texts = none ↔ texts.Nodup ∧ ∀ s ∈ texts, s ∉ seen := by
  intro texts
  induction texts with
  | nil => intro seen; simp [firstRepeat]
  | cons s rest ih =>
    intro seen
    rw [firstRepeat, List.nodup_cons]
    by_cases hs : s ∈ seen
    · rw [if_pos hs]
      refine ⟨fun h => absurd h (by simp), fun h => ?_⟩
      exact absurd hs (h.2 s (List.mem_cons_self ..))
    · rw [if_neg hs, ih]
      refine ⟨fun ⟨hrest, hnew⟩ => ⟨⟨?_, hrest⟩, ?_⟩, fun ⟨⟨hfirst, hrest⟩, hnew⟩ => ⟨hrest, ?_⟩⟩
      · intro hmem
        exact hnew s hmem (List.mem_cons_self ..)
      · intro t ht
        rcases List.mem_cons.mp ht with rfl | ht
        · exact hs
        · exact fun hmem => hnew t ht (List.mem_cons_of_mem _ hmem)
      · intro t ht hmem
        rcases List.mem_cons.mp hmem with rfl | hmem
        · exact hfirst ht
        · exact hnew t (List.mem_cons_of_mem _ ht) hmem

namespace Row

/-- No field is repeated in a row without duplicates. -/
theorem repeatedField?_eq_none_iff (row : Row) :
    row.repeatedField? = none ↔ row.fields.Nodup := by
  unfold repeatedField?
  rw [firstRepeat_eq_none_iff]
  simp

/-- A check that a row names no field twice succeeds where none repeats. -/
theorem checkUnique_eq_ok_iff {site : WriteSite} {row : Row} {u : Unit} :
    checkUnique site row = .ok u ↔ row.fields.Nodup := by
  rw [← repeatedField?_eq_none_iff]
  unfold checkUnique
  split
  next field hfield => simp [hfield]
  next hnone => simp [hnone]

/-- A check that a row has fields and names none twice succeeds where both are so. -/
theorem checkRow_eq_ok_iff {site : WriteSite} {row : Row} {u : Unit} :
    checkRow site row = .ok u ↔ row ≠ [] ∧ row.fields.Nodup := by
  unfold checkRow
  by_cases hempty : row.isEmpty = true
  · rw [if_pos hempty]
    refine ⟨fun h => ?_, fun h => absurd (List.isEmpty_iff.mp hempty) h.1⟩
    cases h
  · rw [if_neg hempty, checkUnique_eq_ok_iff]
    exact ⟨fun h => ⟨fun hnil => hempty (List.isEmpty_iff.mpr hnil), h⟩, fun h => h.2⟩

theorem get?_cons_of_ne {field other : String} {value : Value} {rest : Row}
    (h : other ≠ field) : get? ((field, value) :: rest) other = get? rest other := by
  unfold get?
  rw [List.find?_cons_of_neg]
  simpa using Ne.symm h

/-- The values of a row in its own order, where no field repeats. -/
theorem inOrder_fields : ∀ {row : Row}, row.fields.Nodup → row.inOrder row.fields = row.values := by
  intro row
  induction row with
  | nil => intro _; rfl
  | cons entry rest ih =>
    obtain ⟨field, value⟩ := entry
    intro h
    obtain ⟨hfirst, hrest⟩ := List.nodup_cons.mp h
    -- the first entry is not found under the names of the others
    have htail : inOrder ((field, value) :: rest) (fields rest) = inOrder rest (fields rest) := by
      refine List.map_congr_left fun other hother => ?_
      have hne : other ≠ field := fun he => hfirst (he ▸ hother)
      rw [get?_cons_of_ne hne]
    have hhead : get? ((field, value) :: rest) field = some value := by simp [get?]
    show ((get? ((field, value) :: rest) field).getD .null)
      :: inOrder ((field, value) :: rest) (fields rest) = value :: values rest
    rw [hhead, htail, ih hrest]
    rfl

end Row

end SqlQuery
