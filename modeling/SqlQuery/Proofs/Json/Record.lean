import Mathlib.Data.List.Nodup
import SqlQuery.Json.Record

/-!
# Written records are read back

A record is written with all its fields in their order, and read by looking up each of them. The
lemmas here say that every part of a written document is found again by the reader that belongs
to it, so that the reader of a record gives the record back as soon as the readers of its fields
do:

> `record?_obj`: a document with exactly the fields of a record is that record.

> `list?_ofList`, `nullable_ofOption`: lists and options are read back where their items are.

The readers of trees count the levels of a document; `depth_lt_arr` and `depth_lt_obj` say that
what stands in a document has fewer of them.
-/

namespace SqlQuery.Json

variable {α : Type}

/-! ## Levels -/

/-- An item is no deeper than the list of items. -/
theorem depth_le_depthItems {j : Json} :
    ∀ {items : List Json}, j ∈ items → j.depth ≤ depthItems items
  | i :: rest, h => by
    rw [depthItems]
    rcases List.mem_cons.mp h with rfl | h
    · omega
    · have hrest := depth_le_depthItems h
      omega

/-- An item of an array has fewer levels than the array. -/
theorem depth_lt_arr {j : Json} {items : List Json} (h : j ∈ items) :
    j.depth < (Json.arr items).depth := by
  have hle := depth_le_depthItems h
  rw [depth]
  omega

/-- The value of a member is no deeper than the list of members. -/
theorem depth_le_depthMembers {key : String} {j : Json} :
    ∀ {members : List (String × Json)}, (key, j) ∈ members → j.depth ≤ depthMembers members
  | (k, i) :: rest, h => by
    rw [depthMembers]
    rcases List.mem_cons.mp h with h | h
    · cases h
      omega
    · have hrest := depth_le_depthMembers h
      omega

/-- A member of an object has fewer levels than the object. -/
theorem depth_lt_obj (key : String) {j : Json} {members : List (String × Json)}
    (h : (key, j) ∈ members) : j.depth < (Json.obj members).depth := by
  have hle := depth_le_depthMembers h
  rw [depth]
  omega

/-! ## Records -/

/-- An object with exactly the fields of a record, in any order, is read as the record. -/
theorem record?_obj {keys : List String} {members : List (String × Json)}
    (hkeys : members.map (·.1) = keys) (hnodup : keys.Nodup) :
    (Json.obj members).record? keys = some members := by
  have hknown : members.filter (·.1 ∈ keys) = members := by
    rw [List.filter_eq_self]
    intro m hm
    have hmem : m.1 ∈ members.map (·.1) := List.mem_map_of_mem hm
    rw [hkeys] at hmem
    simpa using hmem
  rw [record?, hknown]
  exact if_pos (hkeys ▸ hnodup)

/-- A record is read from its members in both forms. -/
theorem Form.record?_obj (form : Form) (keys : List String) (members : List (String × Json)) :
    form.record? keys (.obj members) = (Json.obj members).record? keys := by
  cases form <;> rfl

/-- The body of a tagged record is read from its members in both forms. -/
theorem Form.body?_obj (form : Form) (keys : List String) (members : List (String × Json)) :
    form.body? keys (.obj members) = (Json.obj members).record? keys := by
  cases form <;> rfl

/-! ## Parts of a record -/

/-- A written list is read back where all its items are. -/
theorem list?_ofList {encode : α → Json} {decode : Json → Option α} :
    ∀ {items : List α}, (∀ a ∈ items, decode (encode a) = some a) →
      list? decode (ofList encode items) = some items := by
  intro items
  show _ → (items.map encode).mapM decode = some items
  induction items with
  | nil => intro _; rfl
  | cons a rest ih =>
    intro h
    have hrest := ih fun b hb => h b (List.mem_cons_of_mem _ hb)
    rw [List.map_cons, List.mapM_cons, h a (List.mem_cons_self ..), hrest]
    rfl

theorem strings?_ofStrings (items : List String) : strings? (ofStrings items) = some items :=
  list?_ofList fun _ _ => rfl

/-- A written option is read back where its value is, and is not written as null. -/
theorem nullable_ofOption {encode : α → Json} {decode : Json → Option α} {o : Option α}
    (h : ∀ a ∈ o, encode a ≠ .null ∧ decode (encode a) = some a) :
    nullable decode (ofOption encode o) = some o := by
  cases o with
  | none => rfl
  | some a =>
    obtain ⟨hnull, hread⟩ := h a rfl
    rw [ofOption]
    cases hj : encode a with
    | null => exact absurd hj hnull
    | _ =>
      rw [hj] at hread
      simp [nullable, hread]

/-- A number that fits a word is read back. -/
theorem word?_ofWord (n : UInt64) : word? (ofWord n) = some n := by
  have hlt : n.toNat < UInt64.size := n.toNat_lt
  simp only [ofWord, word?]
  rw [if_pos (by omega)]
  simp

theorem ofName_str (read : String → Option α) (name : String) :
    ofName read (.str name) = read name :=
  rfl

/-- A variant with a body is no variant without one. -/
theorem tag?_obj {name : String} {body : Json} (h : body ≠ .null) :
    tag? (.obj [(name, body)]) = none := by
  cases body with
  | null => exact absurd rfl h
  | _ => rfl

/-- A tag is read back with its body. -/
theorem tagged?_obj (name : String) (body : Json) :
    tagged? (.obj [(name, body)]) = some (name, body) :=
  rfl

/-- A tag without a body is read back. -/
theorem Form.tag?_str (form : Form) (name : String) : form.tag? (.str name) = some name := by
  cases form <;> rfl

end SqlQuery.Json
