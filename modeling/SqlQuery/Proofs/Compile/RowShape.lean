import SqlQuery.Proofs.Compile.BoundValues
import SqlQuery.Proofs.Compile.Rows
import SqlQuery.Proofs.Compile.WellFormed
import SqlQuery.Proofs.Sql.InsertText

/-!
# The shape of rows that are inserted together

The rows of one insertion must have the fields of the first one, in any order. They are compared
with it by two searches: for a field of the first row that the other has no value for, and for a
field of the other that the first row does not list. Both searches are of one row in order, so
what they report is the first field outside.

The groups of placeholders are as long as the columns, and their values are put behind each other;
the value at a column of a row is then found by its place alone. It is the value that the row has
for the field of this column, wherever the row lists it.

> `checkShapes_eq_error`: which row is reported, and what about it.

> `getElem?_flatten_of_width`: rows of one width, read from their values behind each other.

> `insertion_of_rows`: which rows are accepted, what they are written as, and what the others
> are refused for.
-/

namespace SqlQuery

open Sql

/-! ## Fields of two rows -/

/-- The first of some fields that is not among others. -/
def FirstOutside (fields others : List String) (field : String) : Prop :=
  ∃ before after, fields = before ++ field :: after ∧ field ∉ others ∧ ∀ f ∈ before, f ∈ others

/-- A search finds the first field outside, where it looks for the fields outside. -/
theorem firstOutside_of_find? {fields others : List String} {p : String → Bool} {field : String}
    (hp : ∀ f, p f = true ↔ f ∉ others) (h : fields.find? p = some field) :
    FirstOutside fields others field := by
  obtain ⟨hfield, before, after, hfields, hbefore⟩ := List.find?_eq_some_iff_append.mp h
  refine ⟨before, after, hfields, (hp field).mp hfield, ?_⟩
  intro f hf
  by_contra hout
  have := hbefore f hf
  rw [(hp f).mpr hout] at this
  cases this

/-- A search finds nothing, where it looks for the fields outside and there is none. -/
theorem find?_outside_eq_none {fields others : List String} {p : String → Bool}
    (hp : ∀ f, p f = true ↔ f ∉ others) :
    fields.find? p = none ↔ ∀ f ∈ fields, f ∈ others := by
  rw [List.find?_eq_none]
  exact forall₂_congr fun f _ => by rw [hp f, not_not]

namespace Row

/-- The fields of one row are those of the other, in any order. -/
def SameFields (row first : Row) : Prop :=
  ∀ field, field ∈ row.fields ↔ field ∈ first.fields

/-- How a row differs from the first one: by the first field of that one which it does not
have, and where it has all of them by its own first field beyond these. -/
inductive Differs (row first : Row) : ShapeProblem → String → Prop where
  | missing {field : String} : FirstOutside first.fields row.fields field →
      Differs row first .missing field
  | unexpected {field : String} : (∀ f ∈ first.fields, f ∈ row.fields) →
      FirstOutside row.fields first.fields field → Differs row first .unexpected field

/-- A row has no value for a field that it does not have. -/
theorem get?_eq_none_iff {row : Row} {field : String} :
    row.get? field = none ↔ field ∉ row.fields := by
  simp only [get?, fields, Option.map_eq_none_iff, List.find?_eq_none, beq_iff_eq, List.mem_map,
    not_exists, not_and]

theorem exists_get? {row : Row} {field : String} (h : field ∈ row.fields) :
    ∃ value, row.get? field = some value := by
  cases hv : row.get? field with
  | none => exact absurd h (get?_eq_none_iff.mp hv)
  | some value => exact ⟨value, rfl⟩

/-- A row that names no field twice has for a field the value it lists with it. -/
theorem get?_eq_some_iff {row : Row} (hdistinct : row.fields.Nodup) {field : String}
    {value : Value} : row.get? field = some value ↔ (field, value) ∈ row := by
  constructor
  · intro h
    obtain ⟨⟨f, v⟩, hfound, rfl⟩ := Option.map_eq_some_iff.mp h
    have hname : f = field := by simpa using List.find?_some hfound
    rw [← hname]
    exact List.mem_of_find?_eq_some hfound
  · intro hmem
    have hfield : field ∈ row.fields := List.mem_map.mpr ⟨_, hmem, rfl⟩
    obtain ⟨v, hv⟩ := exists_get? hfield
    obtain ⟨entry, hfound, hentry⟩ := Option.map_eq_some_iff.mp hv
    have hname : entry.1 = field := by simpa using List.find?_some hfound
    have hsame : entry = (field, value) :=
      List.inj_on_of_nodup_map hdistinct (List.mem_of_find?_eq_some hfound) hmem hname
    rw [hv, ← hentry, hsame]

/-- The order in which a row lists its fields does not matter for their values. -/
theorem get?_of_perm {row row' : Row} (hdistinct : row.fields.Nodup) (h : row.Perm row')
    (field : String) : row'.get? field = row.get? field := by
  have hdistinct' : row'.fields.Nodup := (h.map _).nodup_iff.mp hdistinct
  refine Option.ext fun value => ?_
  rw [get?_eq_some_iff hdistinct, get?_eq_some_iff hdistinct', h.mem_iff]

variable {first row : Row}

theorem SameFields.of_perm {row' : Row} (hsame : row.SameFields first) (h : row.Perm row') :
    row'.SameFields first :=
  fun field => ((h.map Prod.fst).mem_iff (a := field)).symm.trans (hsame field)

/-- The search for a field that a row has no value for looks for the fields outside it. -/
theorem isNone_get?_iff (row : Row) (field : String) :
    (row.get? field).isNone = true ↔ field ∉ row.fields := by
  rw [Option.isNone_iff_eq_none, get?_eq_none_iff]

/-- Rows have no problem with each other where they have the same fields. -/
theorem shapeProblem?_eq_none_iff :
    shapeProblem? first.fields row = none ↔ row.SameFields first := by
  unfold shapeProblem?
  have hmissing : (first.fields.find? fun f => (row.get? f).isNone) = none ↔
      ∀ f ∈ first.fields, f ∈ row.fields := find?_outside_eq_none (isNone_get?_iff row)
  have hextra : (row.fields.find? fun f => f ∉ first.fields) = none ↔
      ∀ f ∈ row.fields, f ∈ first.fields := find?_outside_eq_none fun f => decide_eq_true_iff
  cases hf : first.fields.find? fun f => (row.get? f).isNone with
  | some field =>
    refine ⟨fun h => absurd h (by simp), fun hsame => ?_⟩
    rw [hmissing.mpr fun f hf => (hsame f).mpr hf] at hf
    cases hf
  | none =>
    have hall := hmissing.mp hf
    dsimp only
    rw [Option.map_eq_none_iff, hextra]
    exact ⟨fun h field => ⟨h field, hall field⟩, fun h field => (h field).mp⟩

/-- A problem is found where the row differs, at the first field. -/
theorem differs_of_shapeProblem? {problem : ShapeProblem} {field : String}
    (h : shapeProblem? first.fields row = some (problem, field)) :
    row.Differs first problem field := by
  unfold shapeProblem? at h
  split at h
  next hf =>
    cases h
    exact .missing (firstOutside_of_find? (isNone_get?_iff row) hf)
  next hnone =>
    obtain ⟨f, hf, h⟩ := Option.map_eq_some_iff.mp h
    cases h
    exact .unexpected ((find?_outside_eq_none (isNone_get?_iff row)).mp hnone)
      (firstOutside_of_find? (fun f => decide_eq_true_iff) hf)

end Row

/-! ## The checks -/

variable {first : Row}

/-- Rows with the fields of the first one are accepted. -/
theorem checkShapes_eq_ok (first : Row) (index : Nat) {rest : List Row}
    (h : ∀ row ∈ rest, row.SameFields first) : checkShapes first.fields index rest = .ok () := by
  induction rest generalizing index with
  | nil => rfl
  | cons row rest ih =>
    obtain ⟨hrow, hrest⟩ := List.forall_mem_cons.mp h
    rw [checkShapes, Row.shapeProblem?_eq_none_iff.mpr hrow]
    exact ih (index + 1) hrest

/-- The first row is reported whose fields are not those of the first of all. -/
theorem checkShapes_eq_error (first : Row) (index : Nat) {rest : List Row}
    (h : ¬∀ row ∈ rest, row.SameFields first) :
    ∃ before row after problem field, rest = before ++ row :: after ∧
      (∀ r ∈ before, r.SameFields first) ∧ ¬row.SameFields first ∧
      row.Differs first problem field ∧
      checkShapes first.fields index rest
        = .error (.shapeMismatch (index + before.length) problem field) := by
  induction rest generalizing index with
  | nil => exact absurd (fun _ hrow => absurd hrow List.not_mem_nil) h
  | cons row rest ih =>
    rw [checkShapes]
    cases hrow : shapeProblem? first.fields row with
    | some found =>
      obtain ⟨problem, field⟩ := found
      have hnot : ¬row.SameFields first := by
        intro hsame
        rw [Row.shapeProblem?_eq_none_iff.mpr hsame] at hrow
        cases hrow
      exact ⟨[], row, rest, problem, field, rfl, by simp, hnot,
        Row.differs_of_shapeProblem? hrow, rfl⟩
    | none =>
      have hsame := Row.shapeProblem?_eq_none_iff.mp hrow
      obtain ⟨before, r, after, problem, field, hrest, hbefore, hnot, hdiffers, herror⟩ :=
        ih (index + 1) fun hall => h (List.forall_mem_cons.mpr ⟨hsame, hall⟩)
      refine ⟨row :: before, r, after, problem, field, by rw [hrest]; rfl,
        List.forall_mem_cons.mpr ⟨hsame, hbefore⟩, hnot, hdiffers, ?_⟩
      dsimp only
      rw [herror, List.length_cons, Nat.add_right_comm, Nat.add_assoc]

/-- Rows are accepted where none of them names a field twice. -/
theorem forM_checkUnique_eq_ok_iff {site : WriteSite} {rows : List Row} :
    rows.forM (checkUnique site) = .ok () ↔ ∀ row ∈ rows, row.fields.Nodup :=
  forM_eq_ok_iff.trans (forall₂_congr fun _ _ => Row.checkUnique_eq_ok_iff)

/-- The fields of the first row are taken once no row names a field twice, and the shapes have
been compared. -/
theorem commonFields_of_nodup {site : WriteSite} {rest : List Row} (hne : first ≠ [])
    (hdistinct : ∀ row ∈ first :: rest, row.fields.Nodup) :
    commonFields site (first :: rest)
      = (checkShapes first.fields 1 rest >>= fun _ => .ok first.fields) := by
  unfold commonFields
  dsimp only
  rw [if_neg (by simpa using hne), forM_checkUnique_eq_ok_iff.mpr hdistinct]
  rfl

/-- Rows whose fields are found in common are not empty and name no field twice. -/
theorem nodup_of_commonFields {site : WriteSite} {rest : List Row} {fields : List String}
    (h : commonFields site (first :: rest) = .ok fields) :
    first ≠ [] ∧ ∀ row ∈ first :: rest, row.fields.Nodup := by
  unfold commonFields at h
  dsimp only at h
  by_cases hempty : first.isEmpty = true
  · rw [if_pos hempty] at h
    cases h
  · rw [if_neg hempty] at h
    obtain ⟨⟨⟩, hunique, -⟩ := bind_eq_ok.mp h
    exact ⟨by simpa using hempty, forM_checkUnique_eq_ok_iff.mp hunique⟩

/-! ## Rows of one width -/

/-- Rows of one width, read from their values behind each other. -/
theorem getElem?_flatten_of_width {α : Type} {w : Nat} {rows : List (List α)}
    (h : ∀ row ∈ rows, row.length = w) {j : Nat} (hj : j < w) (i : Nat) :
    rows.flatten[i * w + j]? = rows[i]?.bind (·[j]?) := by
  induction rows generalizing i with
  | nil => simp
  | cons row rows ih =>
    obtain ⟨hrow, hrows⟩ := List.forall_mem_cons.mp h
    rw [List.flatten_cons]
    cases i with
    | zero =>
      rw [Nat.zero_mul, Nat.zero_add, List.getElem?_append_left (by omega)]
      rfl
    | succ i =>
      have hplace : (i + 1) * w + j - w = i * w + j := by
        rw [Nat.succ_mul]
        omega
      rw [List.getElem?_append_right (by rw [hrow, Nat.succ_mul]; omega), hrow, hplace, ih hrows,
        List.getElem?_cons_succ]

/-- Rows of one width have as many values as their number times their width. -/
theorem length_flatten_of_width {α : Type} {w : Nat} {rows : List (List α)}
    (h : ∀ row ∈ rows, row.length = w) : rows.flatten.length = rows.length * w := by
  rw [List.length_flatten, List.map_congr_left h]
  simp

/-- The groups of rows are written one behind the other, and bind the values of the rows so. -/
theorem Parameters.writeAll_groups (p : Parameters) (rows : List (List Value)) :
    p.writeAll (rows.map fun row => grouped (slotList row))
      = (groupTexts p.dialect p.bound.length rows, p.bindAll rows.flatten) := by
  induction rows generalizing p with
  | nil => simp [writeAll, groupTexts, bindAll]
  | cons row rows ih =>
    have hslots : slots (grouped (slotList row)) = row := by
      rw [slots_grouped, slots_slotList]
    have hrest := ih (p.bindAll row)
    rw [List.map_cons, writeAll, write, hslots]
    dsimp only
    rw [hrest]
    simp [render_grouped, render_slotList, groupTexts, bindAll]

/-- Rows of one width are numbered by multiples of it. -/
theorem groupTexts_of_width (d : Dialect) {w : Nat} {rows : List (List Value)}
    (h : ∀ row ∈ rows, row.length = w) (bound : Nat) :
    groupTexts d bound rows
      = (List.range rows.length).map fun i =>
          "(" ++ placeholdersText d (bound + i * w) w ++ ")" := by
  induction rows generalizing bound with
  | nil => rfl
  | cons row rows ih =>
    obtain ⟨hrow, hrows⟩ := List.forall_mem_cons.mp h
    rw [groupTexts, hrow, ih hrows, List.length_cons, List.range_succ_eq_map, List.map_cons,
      List.map_map, Nat.zero_mul, Nat.add_zero]
    congr 1
    refine List.map_congr_left fun i _ => ?_
    rw [Function.comp_apply, Nat.succ_mul, Nat.add_assoc, Nat.add_comm w]

/-! ## Insertions -/

section

variable {site : WriteSite} {schema : Schema} {model : Option String}
  {fixed : List (String × Value)}

/-- Rows that can be inserted together: with the fields of the first one, which are some, are
named once in a row and have columns. -/
structure Insertable (schema : Schema) (model : Option String) (first : Row) (rest : List Row) :
    Prop where
  nonempty : first ≠ []
  distinct : ∀ row ∈ first :: rest, row.fields.Nodup
  alike : ∀ row ∈ rest, row.SameFields first
  known : ∀ field ∈ first.fields, schema.Resolves model field

/-- Fields have columns where each of them does. -/
theorem columnsOf_ok_iff {fields : List String} :
    (∃ columns, columnsOf schema model fields = .ok columns) ↔
      ∀ field ∈ fields, schema.Resolves model field := by
  unfold columnsOf
  induction fields with
  | nil => simp [List.mapM_nil]
  | cons field rest ih =>
    rw [List.mapM_cons, List.forall_mem_cons, ← Schema.columnOf_ok_iff, ← ih]
    exact exists_bind_ok_iff fun column _ => exists_bind_pure_iff

/-- What rows with the fields of the first one are inserted as: the columns of these fields, and
for every row its values for them, both behind what is fixed. -/
theorem insertion_of_alike {rest : List Row} (hne : first ≠ [])
    (hdistinct : ∀ row ∈ first :: rest, row.fields.Nodup)
    (halike : ∀ row ∈ rest, row.SameFields first) :
    insertion site schema model fixed (first :: rest)
      = (columnsOf schema model first.fields >>= fun columns =>
          .ok (fixed.map (·.1) ++ columns,
            (first :: rest).map fun r => fixed.map (·.2) ++ r.inOrder first.fields)) := by
  unfold insertion
  rw [commonFields_of_nodup hne hdistinct, checkShapes_eq_ok first 1 halike]
  rfl

/-- An insertion is made of rows that are insertable, and of no others. -/
theorem insertion_ok_iff {rows : List Row} :
    (∃ out, insertion site schema model fixed rows = .ok out) ↔
      ∃ first rest, rows = first :: rest ∧ Insertable schema model first rest := by
  constructor
  · rintro ⟨out, h⟩
    cases rows with
    | nil =>
      unfold insertion at h
      obtain ⟨fields, hfields, -⟩ := bind_eq_ok.mp h
      cases hfields
    | cons first rest =>
      have hcommon : ∃ fields, commonFields site (first :: rest) = .ok fields := by
        unfold insertion at h
        obtain ⟨fields, hfields, -⟩ := bind_eq_ok.mp h
        exact ⟨fields, hfields⟩
      obtain ⟨fields, hfields⟩ := hcommon
      obtain ⟨hne, hdistinct⟩ := nodup_of_commonFields hfields
      have halike : ∀ row ∈ rest, row.SameFields first := by
        by_contra hdiffers
        obtain ⟨_, _, _, _, _, -, -, -, -, herror⟩ := checkShapes_eq_error first 1 hdiffers
        rw [commonFields_of_nodup hne hdistinct, herror] at hfields
        cases hfields
      rw [insertion_of_alike hne hdistinct halike] at h
      obtain ⟨columns, hcolumns, -⟩ := bind_eq_ok.mp h
      exact ⟨first, rest, rfl, hne, hdistinct, halike, columnsOf_ok_iff.mp ⟨columns, hcolumns⟩⟩
  · rintro ⟨first, rest, rfl, hne, hdistinct, halike, hknown⟩
    obtain ⟨columns, hcolumns⟩ := columnsOf_ok_iff.mpr hknown
    rw [insertion_of_alike hne hdistinct halike, hcolumns]
    exact ⟨_, rfl⟩

/-- The fields within later rows may be listed in any order. -/
theorem insertion_of_perm {rest rest' : List Row} {out : List String × List (List Value)}
    (hperm : List.Forall₂ List.Perm rest rest')
    (h : insertion site schema model fixed (first :: rest) = .ok out) :
    insertion site schema model fixed (first :: rest') = .ok out := by
  obtain ⟨_, _, ⟨⟩, hne, hdistinct, halike, hknown⟩ := insertion_ok_iff.mp ⟨out, h⟩
  obtain ⟨hfirst, hrest⟩ := List.forall_mem_cons.mp hdistinct
  have hrows : List.Forall₂ (fun r r' => r.fields.Nodup ∧ r.Perm r') rest rest' :=
    (List.forall₂_and_left ..).mpr ⟨hrest, hperm⟩
  have hrest' : ∀ row ∈ rest', row.fields.Nodup := by
    intro row' hrow'
    obtain ⟨row, -, hnodup, hp⟩ := exists_mem_of_forall₂ hrows row' hrow'
    exact (hp.map _).nodup_iff.mp hnodup
  have halike' : ∀ row ∈ rest', row.SameFields first := by
    intro row' hrow'
    obtain ⟨row, hrow, hp⟩ := exists_mem_of_forall₂ hperm row' hrow'
    exact (halike row hrow).of_perm hp
  have hvalues : rest'.map (fun r => fixed.map (·.2) ++ r.inOrder first.fields)
      = rest.map fun r => fixed.map (·.2) ++ r.inOrder first.fields := by
    rw [← List.forall₂_eq_eq_eq, List.forall₂_map_left_iff, List.forall₂_map_right_iff]
    refine hrows.flip.imp fun r' r ⟨hnodup, hp⟩ => ?_
    unfold Row.inOrder
    simp only [Row.get?_of_perm hnodup hp]
  rw [insertion_of_alike hne hdistinct halike] at h
  rw [insertion_of_alike hne (List.forall_mem_cons.mpr ⟨hfirst, hrest'⟩) halike', List.map_cons,
    hvalues]
  exact h

/-- What rows of one insertion are written as behind the values that a list has: their columns
are those of the fields of the first row, each row is a group of as many placeholders as there are
columns, and the value bound for a column is the fixed one or the row's own for its field. -/
structure WrittenRows (p : Parameters) (schema : Schema) (model : Option String)
    (fixed : List (String × Value)) (first : Row) (rest : List Row) (columns : List String)
    (values : List (List Value)) : Prop where
  columns : ∃ own,
    List.Forall₂ (fun field column => schema.columnOf model field = .ok column) first.fields own ∧
      columns = fixed.map (·.1) ++ own
  groups : (p.writeAll (values.map fun row => grouped (slotList row))).1
    = (List.range (rest.length + 1)).map fun i =>
        "(" ++ placeholdersText p.dialect
          (p.bound.length + i * (fixed.length + first.length)) (fixed.length + first.length) ++ ")"
  bound : (p.writeAll (values.map fun row => grouped (slotList row))).2 = p.bindAll values.flatten
  count : values.flatten.length = (rest.length + 1) * (fixed.length + first.length)
  fixedValue : ∀ i < rest.length + 1, ∀ j entry, fixed[j]? = some entry →
    values.flatten[i * (fixed.length + first.length) + j]? = some entry.2
  ownValue : ∀ i row, (first :: rest)[i]? = some row → ∀ j field, first.fields[j]? = some field →
    ∃ value, row.get? field = some value ∧
      values.flatten[i * (fixed.length + first.length) + (fixed.length + j)]? = some value

/-- What an insertion writes for every row, behind any values. -/
theorem writtenRows_of_insertion {rest : List Row} {columns : List String}
    {values : List (List Value)}
    (h : insertion site schema model fixed (first :: rest) = .ok (columns, values))
    (p : Parameters) : WrittenRows p schema model fixed first rest columns values := by
  obtain ⟨_, _, ⟨⟩, hne, hdistinct, halike, -⟩ := insertion_ok_iff.mp ⟨_, h⟩
  rw [insertion_of_alike hne hdistinct halike] at h
  obtain ⟨own, hown, h⟩ := bind_eq_ok.mp h
  obtain ⟨rfl, hvalues⟩ := Prod.mk.inj (Except.ok.inj h)
  have hlength : values.length = rest.length + 1 := by
    rw [← hvalues, List.length_map, List.length_cons]
  have hwidth : ∀ row ∈ values, row.length = fixed.length + first.length := by
    rw [← hvalues]
    intro row hrow
    obtain ⟨r, -, rfl⟩ := List.mem_map.mp hrow
    simp [Row.inOrder, Row.fields]
  have hfields : first.fields.length = first.length := List.length_map ..
  -- the value at a place of a row, by the width of the rows
  have hplace : ∀ i row, (first :: rest)[i]? = some row → ∀ j < fixed.length + first.length,
      values.flatten[i * (fixed.length + first.length) + j]?
        = (fixed.map (·.2) ++ row.inOrder first.fields)[j]? := by
    intro i row hrow j hj
    rw [getElem?_flatten_of_width hwidth hj, ← hvalues, List.getElem?_map, hrow]
    rfl
  refine ⟨⟨own, forall₂_of_mapM hown, rfl⟩, ?_, ?_, ?_, ?_, ?_⟩
  · rw [p.writeAll_groups, groupTexts_of_width p.dialect hwidth, hlength]
  · rw [p.writeAll_groups]
  · rw [length_flatten_of_width hwidth, hlength]
  · intro i hi j entry hentry
    obtain ⟨hj, -⟩ := List.getElem?_eq_some_iff.mp hentry
    have hrow : (first :: rest)[i]? = some (first :: rest)[i] := List.getElem?_eq_getElem hi
    rw [hplace i _ hrow j (by omega), List.getElem?_append_left (by simpa using hj),
      List.getElem?_map, hentry]
    rfl
  · intro i row hrow j field hfield
    obtain ⟨hj, -⟩ := List.getElem?_eq_some_iff.mp hfield
    have hfirst : field ∈ first.fields := List.mem_of_getElem? hfield
    have hmem : field ∈ row.fields := by
      rcases List.mem_cons.mp (List.mem_of_getElem? hrow) with rfl | hlater
      · exact hfirst
      · exact (halike row hlater field).mpr hfirst
    obtain ⟨value, hvalue⟩ := Row.exists_get? hmem
    refine ⟨value, hvalue, ?_⟩
    rw [hplace i row hrow _ (by omega), List.getElem?_append_right (by simp), List.length_map,
      Nat.add_sub_cancel_left, Row.inOrder, List.getElem?_map, hfield]
    simp [hvalue]

/-- Rows are accepted for one insertion exactly where there is a first one, it is not empty, no
row names a field twice, the others have its fields in any order, and these have columns. They are
then written under the columns of the first row, whatever the order in which the later rows list
their fields. Where the first row is not empty and no row names a field twice, but the fields of
later rows differ from those of the first, the first such row is reported; where none does, only
the columns can be missing. -/
theorem insertion_of_rows (site : WriteSite) (schema : Schema) (model : Option String)
    (fixed : List (String × Value)) (rows : List Row) :
    ((∃ out, insertion site schema model fixed rows = .ok out) ↔
      ∃ first rest, rows = first :: rest ∧ Insertable schema model first rest) ∧
    (∀ first rest columns values, rows = first :: rest →
      insertion site schema model fixed rows = .ok (columns, values) →
        (∀ p, WrittenRows p schema model fixed first rest columns values) ∧
        ∀ rest', List.Forall₂ List.Perm rest rest' →
          insertion site schema model fixed (first :: rest') = .ok (columns, values)) ∧
    ∀ first rest, rows = first :: rest → first ≠ [] → (∀ row ∈ rows, row.fields.Nodup) →
      ((∀ row ∈ rest, row.SameFields first) → ∀ e,
        insertion site schema model fixed rows = .error e →
          columnsOf schema model first.fields = .error e) ∧
      ((∃ row ∈ rest, ¬row.SameFields first) →
        ∃ before row after problem field, rest = before ++ row :: after ∧
          (∀ r ∈ before, r.SameFields first) ∧ ¬row.SameFields first ∧
          row.Differs first problem field ∧
          insertion site schema model fixed rows
            = .error (.shapeMismatch (before.length + 1) problem field)) := by
  refine ⟨insertion_ok_iff, ?_, ?_⟩
  · rintro first rest columns values rfl h
    exact ⟨writtenRows_of_insertion h, fun rest' hperm => insertion_of_perm hperm h⟩
  · rintro first rest rfl hne hdistinct
    refine ⟨?_, ?_⟩
    · intro halike e h
      rw [insertion_of_alike hne hdistinct halike] at h
      rcases bind_eq_error.mp h with h | ⟨columns, -, h⟩
      · exact h
      · cases h
    · rintro ⟨row, hrow, hdiffers⟩
      obtain ⟨before, r, after, problem, field, hrest, hbefore, hnot, hr, herror⟩ :=
        checkShapes_eq_error first 1 fun hall => hdiffers (hall row hrow)
      refine ⟨before, r, after, problem, field, hrest, hbefore, hnot, hr, ?_⟩
      unfold insertion
      rw [commonFields_of_nodup hne hdistinct, herror, Nat.add_comm 1]
      rfl

/-- A book in the hands of a reader. -/
def borrowedBook : Row :=
  [("late", .bool true), ("reader", .int 1)]

/-- A book that lists its fields the other way round. -/
def heldBook : Row :=
  [("reader", .int 2), ("late", .bool false)]

/-- A book that nobody has. -/
def lostBook : Row :=
  [("late", .null)]

/-- Rows in another order of fields are the same rows, and one with another field is refused at its
place. -/
theorem insertion_of_rows_books :
    (∃ columns values,
      insertion (.query .createMany) librarySchema (some "Book") [("shelf", .int 3)]
          [borrowedBook, heldBook] = .ok (columns, values) ∧
        WrittenRows { dialect := .postgres, bound := [.null] } librarySchema (some "Book")
          [("shelf", .int 3)] borrowedBook [heldBook] columns values ∧
        insertion (.query .createMany) librarySchema (some "Book") [("shelf", .int 3)]
          [borrowedBook, heldBook.reverse] = .ok (columns, values)) ∧
    ∃ before row after problem field, [heldBook, lostBook] = before ++ row :: after ∧
      Row.Differs row borrowedBook problem field ∧
      insertion (.query .createMany) librarySchema (some "Book") [("shelf", .int 3)]
        [borrowedBook, heldBook, lostBook]
          = .error (.shapeMismatch (before.length + 1) problem field) := by
  refine ⟨?_, ?_⟩
  · obtain ⟨-, hwritten, -⟩ := insertion_of_rows (.query .createMany) librarySchema (some "Book")
      [("shelf", .int 3)] [borrowedBook, heldBook]
    have hok : insertion (.query .createMany) librarySchema (some "Book") [("shelf", .int 3)]
        [borrowedBook, heldBook] = .ok (["shelf", "late", "reader_id"],
          [[.int 3, .bool true, .int 1], [.int 3, .bool false, .int 2]]) := by rfl
    obtain ⟨hrows, hperm⟩ := hwritten _ _ _ _ rfl hok
    exact ⟨_, _, hok, hrows _, hperm _ (.cons (List.reverse_perm _).symm .nil)⟩
  · obtain ⟨-, -, hshape⟩ := insertion_of_rows (.query .createMany) librarySchema (some "Book")
      [("shelf", .int 3)] [borrowedBook, heldBook, lostBook]
    have hlost : ¬Row.SameFields lostBook borrowedBook :=
      fun hsame => absurd ((hsame "reader").mpr (by decide)) (by decide)
    have hdistinct : ∀ row ∈ [borrowedBook, heldBook, lostBook], row.fields.Nodup := by decide
    obtain ⟨before, row, after, problem, field, hrest, -, -, hdiffers, herror⟩ :=
      (hshape _ _ rfl (by simp [borrowedBook]) hdistinct).2 ⟨lostBook, by simp, hlost⟩
    exact ⟨before, row, after, problem, field, hrest, hdiffers, herror⟩

end

end SqlQuery
