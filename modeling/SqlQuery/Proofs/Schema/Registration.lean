import Mathlib.Data.List.Induction
import Mathlib.Data.List.Nodup
import SqlQuery.Schema.Basic

/-!
# Models and the index of their names

A schema keeps its models in a row, and beside the row an index that leads from a name to a place
in it. The two have to stay in step: a new name goes to the end of both, and a known one keeps its
place while the model there is replaced, however many models have come after it. `Schema.InStep`
says what ties row and index to each other and to the models that were registered so far:

> `InStep.add`: one more registration keeps them in step.

> `inStep_of_reached`: so they are in step after any number of registrations.

What a lookup answers follows from that, and no lookup needs to search the row:

> `Schema.registered_in_step`: names stand once, in the order in which they came; the index leads
> from every one of them to the model that was registered last under it; and a schema that is
> built again from its own models is the same, with the same index.
-/

namespace SqlQuery

namespace Schema

/-- The schema comes from the empty one by registrations, of one model at a time or of all the
models of a definition at once; they are listed in order. -/
inductive Reached : List Model → Schema → Prop where
  | empty : Reached [] {}
  | define (models : List Model) : Reached models (ofModels models)
  | add {added : List Model} {s : Schema} (m : Model) : Reached added s →
      Reached (added ++ [m]) (s.add m)

/-- The model that was registered last under a name. -/
def latest? (added : List Model) (name : String) : Option Model :=
  added.reverse.find? (·.name == name)

/-- The model that was added last is the latest of its name. -/
theorem latest?_concat (added : List Model) (m : Model) (name : String) :
    latest? (added ++ [m]) name = if m.name = name then some m else latest? added name := by
  unfold latest?
  rw [List.reverse_concat]
  by_cases h : m.name = name
  · rw [if_pos h, List.find?_cons_of_pos (by simpa using h)]
  · rw [if_neg h, List.find?_cons_of_neg (by simpa using h)]

/-- A name has no latest model where none was added under it. -/
theorem latest?_eq_none_iff (added : List Model) (name : String) :
    latest? added name = none ↔ name ∉ added.map (·.name) := by
  simp [latest?]

theorem eraseDups_concat (names : List String) (name : String) :
    (names ++ [name]).eraseDups
      = if name ∈ names then names.eraseDups else names.eraseDups ++ [name] := by
  rw [List.eraseDups_append]
  by_cases h : name ∈ names
  · simp [List.removeAll, h]
  · simp [List.removeAll, h, List.eraseDups_cons]

/-! ## Places -/

/-- An index that numbers the names of a row has for each the first place where it stands. -/
theorem lookup_zipIdx (name : String) :
    ∀ (models : List Model) (start : Nat),
      ((models.map (·.name)).zipIdx start).lookup name
        = (models.findIdx? (·.name == name)).map (· + start) := by
  intro models
  induction models with
  | nil => intro start; rfl
  | cons n rest ih =>
    intro start
    rw [List.map_cons, List.zipIdx_cons, List.lookup_cons, List.findIdx?_cons, ih]
    by_cases hn : n.name = name
    · simp [hn]
    · have hne : (name == n.name) = false := by simpa using Ne.symm hn
      have hshift : (fun i => i + (start + 1)) = (· + start) ∘ (· + 1) := by
        funext i
        simp only [Function.comp_apply]
        omega
      rw [hne, if_neg (by simpa using hn), Option.map_map, ← hshift]

/-- A model is found through the place of its name. -/
theorem model?_eq_bind (s : Schema) (name : String) :
    s.model? name = (s.position? name).bind fun i => s.models[i]? :=
  rfl

/-- A model whose name has a place takes that place. -/
theorem add_of_position {s : Schema} {m : Model} {i : Nat} (h : s.position? m.name = some i) :
    s.add m = { s with models := s.models.set i m } := by
  rw [add, h]

/-- A model of a new name takes the next place. -/
theorem add_of_new {s : Schema} {m : Model} (h : s.position? m.name = none) :
    s.add m = ⟨s.models ++ [m], s.index ++ [(m.name, s.models.length)]⟩ := by
  rw [add, h]

/-- A new name gets the place at the end, and the others keep theirs. -/
theorem position?_add_of_new {s : Schema} {m : Model} (h : s.position? m.name = none)
    (name : String) :
    (s.add m).position? name
      = if m.name = name then some s.models.length else s.position? name := by
  rw [add_of_new h, position?, List.lookup_append]
  by_cases hm : m.name = name
  · subst hm
    rw [if_pos rfl, ← position?, h]
    simp
  · have hne : (name == m.name) = false := by simpa using Ne.symm hm
    rw [if_neg hm, List.lookup_cons, hne, ← position?]
    simp

/-- Where the index numbers the names, it finds what a search of the row finds. -/
theorem position?_of_index_eq {s : Schema} (h : s.index = s.names.zipIdx) (name : String) :
    s.position? name = s.models.findIdx? (·.name == name) := by
  rw [position?, h, names, lookup_zipIdx]
  simp

/-! ## Any number of registrations -/

/-- What ties a schema to the models that were registered. -/
structure InStep (added : List Model) (s : Schema) : Prop where
  nodup : s.names.Nodup
  names_eq : s.names = (added.map (·.name)).eraseDups
  index_eq : s.index = s.names.zipIdx
  model?_eq : ∀ name, s.model? name = latest? added name

/-- Before any model is added, index and models are in step. -/
theorem inStep_empty : InStep [] {} where
  nodup := List.nodup_nil
  names_eq := rfl
  index_eq := rfl
  model?_eq _ := rfl

namespace InStep

variable {added : List Model} {s : Schema}

/-- The place of a name is where the model of that name stands. -/
theorem position?_eq_some_iff (h : InStep added s) (name : String) (i : Nat) :
    s.position? name = some i ↔ ∃ m, s.models[i]? = some m ∧ m.name = name := by
  rw [position?_of_index_eq h.index_eq, List.findIdx?_eq_some_iff_getElem]
  constructor
  · rintro ⟨hi, hname, -⟩
    exact ⟨s.models[i], List.getElem?_eq_getElem hi, by simpa using hname⟩
  · rintro ⟨m, hm, hname⟩
    obtain ⟨hi, rfl⟩ := List.getElem?_eq_some_iff.mp hm
    refine ⟨hi, by simpa using hname, ?_⟩
    intro j hj hsame
    -- the same name at an earlier place would be a second one
    have hj' : j < s.names.length := by
      rw [names, List.length_map]
      omega
    have hi' : i < s.names.length := by rwa [names, List.length_map]
    have heq : s.names[j] = s.names[i] := by
      simp only [names, List.getElem_map]
      rw [hname]
      simpa using hsame
    have hij : j = i := (List.Nodup.getElem_inj_iff h.nodup).mp heq
    omega

/-- A name has no place where it is not among the names. -/
theorem position?_eq_none_iff (h : InStep added s) (name : String) :
    s.position? name = none ↔ name ∉ s.names := by
  rw [position?_of_index_eq h.index_eq]
  simp [names]

/-- A known name keeps its place; the model there is replaced. -/
theorem add_known (h : InStep added s) {m : Model} {i : Nat}
    (hi : s.position? m.name = some i) : InStep (added ++ [m]) (s.add m) := by
  obtain ⟨n, hn, hname⟩ := (h.position?_eq_some_iff m.name i).mp hi
  have hmem : m.name ∈ s.names := hname ▸ List.mem_map_of_mem (List.mem_of_getElem? hn)
  have hnames : (s.add m).names = s.names := by
    have hsame : s.names[i]? = some m.name := by rw [names, List.getElem?_map, hn, ← hname]; rfl
    obtain ⟨hlt, hget⟩ := List.getElem?_eq_some_iff.mp hsame
    rw [add_of_position hi, names, List.map_set, ← names, ← hget, List.set_getElem_self]
  refine ⟨?_, ?_, ?_, ?_⟩
  · rw [hnames]
    exact h.nodup
  · -- the name has come before, so it is not counted once more
    have hadded : m.name ∈ added.map (·.name) := by rwa [h.names_eq, List.mem_eraseDups] at hmem
    rw [hnames, h.names_eq, List.map_append, List.map_singleton, eraseDups_concat, if_pos hadded]
  · rw [hnames, add_of_position hi]
    exact h.index_eq
  · intro name
    rw [latest?_concat, ← h.model?_eq, add_of_position hi]
    show (s.position? name).bind (fun j => (s.models.set i m)[j]?) = _
    have hlt : i < s.models.length := (List.getElem?_eq_some_iff.mp hn).1
    by_cases hm : m.name = name
    · rw [if_pos hm, ← hm, hi, Option.bind_some, List.getElem?_set_self hlt]
    · rw [if_neg hm, model?_eq_bind]
      cases hj : s.position? name with
      | none => rfl
      | some j =>
        -- another name stands at another place, where nothing is replaced
        have hne : i ≠ j := by
          rintro rfl
          obtain ⟨n', hn', hname'⟩ := (h.position?_eq_some_iff name i).mp hj
          cases hn.symm.trans hn'
          exact hm (hname.symm.trans hname')
        rw [Option.bind_some, Option.bind_some, List.getElem?_set_ne hne]

/-- A new name goes to the end of the row and of the index. -/
theorem add_unknown (h : InStep added s) {m : Model} (hnone : s.position? m.name = none) :
    InStep (added ++ [m]) (s.add m) := by
  have hnew : m.name ∉ s.names := (h.position?_eq_none_iff m.name).mp hnone
  have hnames : (s.add m).names = s.names ++ [m.name] := by
    rw [add_of_new hnone, names, List.map_append, List.map_singleton, ← names]
  refine ⟨?_, ?_, ?_, ?_⟩
  · rw [hnames]
    refine List.nodup_append.mpr ⟨h.nodup, List.nodup_singleton _, ?_⟩
    rintro a ha b hb rfl
    exact hnew (List.mem_singleton.mp hb ▸ ha)
  · have hadded : m.name ∉ added.map (·.name) := by rwa [h.names_eq, List.mem_eraseDups] at hnew
    rw [hnames, h.names_eq, List.map_append, List.map_singleton, eraseDups_concat, if_neg hadded]
  · rw [hnames, add_of_new hnone, List.zipIdx_append, ← h.index_eq]
    simp [names]
  · intro name
    rw [latest?_concat, ← h.model?_eq, model?_eq_bind, position?_add_of_new hnone]
    by_cases hm : m.name = name
    · rw [if_pos hm, if_pos hm, Option.bind_some, add_of_new hnone, List.getElem?_concat_length]
    · rw [if_neg hm, if_neg hm, model?_eq_bind, add_of_new hnone]
      -- the places of the others lie inside the row, where the new model is not
      cases hj : s.position? name with
      | none => rfl
      | some j =>
        obtain ⟨n, hn, -⟩ := (h.position?_eq_some_iff name j).mp hj
        have hlt : j < s.models.length := (List.getElem?_eq_some_iff.mp hn).1
        rw [Option.bind_some, Option.bind_some, List.getElem?_append_left hlt]

/-- One more registration keeps a schema in step with what was registered. -/
theorem add (h : InStep added s) (m : Model) : InStep (added ++ [m]) (s.add m) := by
  cases hi : s.position? m.name with
  | some i => exact h.add_known hi
  | none => exact h.add_unknown hi

/-- Models that are added one after the other keep index and models in step. -/
theorem foldl (h : InStep added s) (models : List Model) :
    InStep (added ++ models) (models.foldl Schema.add s) := by
  induction models generalizing added s with
  | nil => simpa using h
  | cons m rest ih =>
    rw [List.foldl_cons, List.append_cons]
    exact ih (h.add m)

end InStep

/-- After any registrations, a schema is in step with what was registered. -/
theorem inStep_of_reached {added : List Model} {s : Schema} (h : Reached added s) :
    InStep added s := by
  induction h with
  | empty => exact inStep_empty
  | define models => exact inStep_empty.foldl models
  | add m _ ih => exact ih.add m

/-! ## Building a schema again -/

/-- Models of different names are registered as they stand. -/
theorem ofModels_of_nodup (models : List Model) :
    (models.map (·.name)).Nodup → ofModels models = ⟨models, (models.map (·.name)).zipIdx⟩ := by
  induction models using List.reverseRecOn with
  | nil => intro _; rfl
  | append_singleton models m ih =>
    intro h
    rw [List.map_append, List.map_singleton, List.nodup_append] at h
    obtain ⟨hnodup, -, hdisjoint⟩ := h
    have hnew : Schema.position? ⟨models, (models.map (·.name)).zipIdx⟩ m.name = none := by
      rw [position?_of_index_eq rfl, List.findIdx?_eq_none_iff]
      intro n hn
      have hne : n.name ≠ m.name := hdisjoint _ (List.mem_map_of_mem hn) _ (.head _)
      simpa using hne
    have hsplit : ofModels (models ++ [m]) = (ofModels models).add m := by
      rw [ofModels, List.foldl_append]
      rfl
    rw [hsplit, ih hnodup, add_of_new hnew, List.map_append, List.map_singleton,
      List.zipIdx_append]
    simp

/-- A schema in step with registrations is the schema of its own models. -/
theorem InStep.ofModels_models {added : List Model} {s : Schema} (h : InStep added s) :
    ofModels s.models = s := by
  obtain ⟨models, index⟩ := s
  rw [ofModels_of_nodup _ h.nodup]
  exact congrArg _ h.index_eq.symm

/-! ## Lookups -/

/-- The latest model of a name is the one behind which no other of the name was added. -/
theorem latest?_eq_some_iff (added : List Model) (name : String) (m : Model) :
    latest? added name = some m ↔
      ∃ before after, added = before ++ m :: after ∧ m.name = name ∧
        ∀ n ∈ after, n.name ≠ name := by
  unfold latest?
  rw [List.find?_eq_some_iff_append]
  constructor
  · rintro ⟨hname, later, earlier, hadded, hlater⟩
    refine ⟨earlier.reverse, later.reverse, ?_, by simpa using hname, ?_⟩
    · rw [← List.reverse_reverse added, hadded]
      simp
    · intro n hn
      simpa using hlater n (List.mem_reverse.mp hn)
  · rintro ⟨before, after, rfl, hname, hafter⟩
    refine ⟨by simpa using hname, after.reverse, before.reverse, by simp, ?_⟩
    intro n hn
    simpa using hafter n (List.mem_reverse.mp hn)

namespace InStep

variable {added : List Model} {s : Schema}

/-- A name is known where a model was registered under it, and its model is the last one. -/
theorem model_eq_ok_iff (h : InStep added s) (name : String) (m : Model) :
    s.model name = .ok m ↔ latest? added name = some m := by
  rw [model, h.model?_eq]
  cases latest? added name <;> simp

/-- A model is not found where none of its name was added, and the error suggests a known name. -/
theorem model_eq_error_iff (h : InStep added s) (name : String) (e : Error) :
    s.model name = .error e ↔
      name ∉ added.map (·.name) ∧ e = .unknownModel name (Text.closest? name s.names) := by
  rw [model, h.model?_eq, ← latest?_eq_none_iff]
  cases latest? added name with
  | some m => simp
  | none => simp [eq_comm]

end InStep

/-- However a schema was reached, its names stand once, in the order in which they first came. The
index numbers them: it has a place for exactly the names that were registered, and at the place of
a name stands the model of that name. A lookup answers with the model that was registered last
under a name, and refuses exactly the names that never were. And the schema's own models build the
same schema again, with the same index. -/
theorem registered_in_step {added : List Model} {s : Schema} (h : Reached added s) :
    s.names.Nodup ∧ s.names = (added.map (·.name)).eraseDups ∧ s.index = s.names.zipIdx ∧
      (∀ name, (s.position? name).isSome ↔ name ∈ added.map (·.name)) ∧
      (∀ name i, s.position? name = some i ↔ ∃ m, s.models[i]? = some m ∧ m.name = name) ∧
      (∀ name m, s.model name = .ok m ↔
        ∃ before after, added = before ++ m :: after ∧ m.name = name ∧
          ∀ n ∈ after, n.name ≠ name) ∧
      (∀ name e, s.model name = .error e ↔
        name ∉ added.map (·.name) ∧ e = .unknownModel name (Text.closest? name s.names)) ∧
      ofModels s.models = s := by
  have hstep : InStep added s := inStep_of_reached h
  refine ⟨hstep.nodup, hstep.names_eq, hstep.index_eq, ?_, hstep.position?_eq_some_iff, ?_,
    hstep.model_eq_error_iff, hstep.ofModels_models⟩
  · intro name
    rw [← Option.not_isNone, Bool.not_eq_true', Bool.eq_false_iff, ne_eq, Option.isNone_iff_eq_none,
      hstep.position?_eq_none_iff, not_not, hstep.names_eq, List.mem_eraseDups]
  · intro name m
    rw [hstep.model_eq_ok_iff, latest?_eq_some_iff]

/-- A definition of readers and books, a model of loans after them, and then other readers: they
take the first place, from where the later models are still found. -/
theorem registered_in_step_readers :
    let readers : Model := { name := "Reader", table := "readers" }
    let books : Model := { name := "Book", table := "books" }
    let loans : Model := { name := "Loan", table := "loans" }
    let others : Model := { name := "Reader", table := "people" }
    let s := ((ofModels [readers, books]).add loans).add others
    Reached [readers, books, loans, others] s ∧ s.models = [others, books, loans] ∧
      s.model "Reader" = .ok others ∧ s.position? "Loan" = some 2 := by
  intro readers books loans others s
  have hreached : Reached [readers, books, loans, others] s :=
    .add others (.add loans (.define [readers, books]))
  obtain ⟨-, -, -, -, hposition, hmodel, -⟩ := registered_in_step hreached
  have hmodels : s.models = [others, books, loans] := by decide
  refine ⟨hreached, hmodels, (hmodel "Reader" others).mpr ?_, (hposition "Loan" 2).mpr ?_⟩
  · exact ⟨[readers, books, loans], [], rfl, rfl, by simp⟩
  · exact ⟨loans, by decide, rfl⟩

end Schema

end SqlQuery
