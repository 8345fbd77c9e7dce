import SqlQuery.Proofs.Schema.Registration
import SqlQuery.Proofs.Text.EditDistance

/-!
# Suggestions that help

A lookup that finds nothing suggests a name that was perhaps meant. Candidates are gone through in
the order in which they are declared, with the nearest so far kept; one that is just as near does
not replace it. What is suggested has been a candidate, and the lookup finds every candidate, so
that to ask again with the suggestion is to be answered. For models this takes the index to know
all names that are listed, which it does after any registrations.

> `Text.suggests_closest?`: the search answers with the first of the nearest candidates, if there
> is one within reach.

> `Schema.suggestions_help`: a suggested name is found, and it is the best one.
-/

namespace SqlQuery

namespace Text

/-! ## The nearest candidate -/

/-- The slips that a name may have to be taken for another one, by its length in bytes. -/
def reach (name : String) : Nat :=
  if name.utf8ByteSize ≤ 2 then 0 else if name.utf8ByteSize ≤ 5 then 2 else 3

/-- What is to be suggested for a name. A candidate is so where it is within reach, no other one is
nearer, and none before it is as near; nothing is so where no candidate is within reach. -/
def Suggests (name : String) (candidates : List String) : Option String → Prop
  | some s => ∃ before after n, candidates = before ++ s :: after ∧
      IsLeast {n | Slips n name.toList s.toList} n ∧ n ≤ reach name ∧
      (∀ c ∈ before, ∀ m, Slips m name.toList c.toList → n < m) ∧
      ∀ c ∈ after, ∀ m, Slips m name.toList c.toList → n ≤ m
  | none => ∀ c ∈ candidates, ∀ m, Slips m name.toList c.toList → reach name < m

theorem Suggests.mem {name s : String} {candidates : List String}
    (h : Suggests name candidates (some s)) : s ∈ candidates := by
  obtain ⟨before, after, n, rfl, -⟩ := h
  exact List.mem_append_right before (List.mem_cons_self ..)

/-- The first of the candidates at the least distance, if that is within a limit. -/
def FirstNearest (name : String) (limit : Nat) (candidates : List String) : Option String → Prop
  | some s => ∃ before after, candidates = before ++ s :: after ∧ editDistance name s ≤ limit ∧
      (∀ c ∈ before, editDistance name s < editDistance name c) ∧
      ∀ c ∈ after, editDistance name s ≤ editDistance name c
  | none => ∀ c ∈ candidates, limit < editDistance name c

variable {name : String} {limit : Nat} {seen : List String}

/-- A candidate that is nearer than all before it takes the place of the best one. -/
theorem FirstNearest.replace {best : Option String} (h : FirstNearest name limit seen best)
    {c : String} (hlimit : editDistance name c ≤ limit)
    (hnearer : ∀ s, best = some s → editDistance name c < editDistance name s) :
    FirstNearest name limit (seen ++ [c]) (some c) := by
  refine ⟨seen, [], rfl, hlimit, ?_, by simp⟩
  intro x hx
  cases best with
  | none => exact Nat.lt_of_le_of_lt hlimit (h x hx)
  | some s =>
    obtain ⟨before, after, rfl, -, hbefore, hafter⟩ := h
    have hc := hnearer s rfl
    rcases List.mem_append.mp hx with hx | hx
    · exact Nat.lt_trans hc (hbefore x hx)
    · rcases List.mem_cons.mp hx with rfl | hx
      · exact hc
      · exact Nat.lt_of_lt_of_le hc (hafter x hx)

/-- A candidate that is out of reach, or not nearer than the best one, changes nothing. -/
theorem FirstNearest.keep {best : Option String} (h : FirstNearest name limit seen best)
    {c : String} (hfar : editDistance name c ≤ limit →
      ∃ s, best = some s ∧ editDistance name s ≤ editDistance name c) :
    FirstNearest name limit (seen ++ [c]) best := by
  cases best with
  | none =>
    have hout : limit < editDistance name c := by
      by_contra hin
      obtain ⟨s, hs, -⟩ := hfar (Nat.not_lt.mp hin)
      cases hs
    intro x hx
    rcases List.mem_append.mp hx with hx | hx
    · exact h x hx
    · rwa [List.mem_singleton.mp hx]
  | some s =>
    obtain ⟨before, after, rfl, hlimit, hbefore, hafter⟩ := h
    have hc : editDistance name s ≤ editDistance name c := by
      by_cases hin : editDistance name c ≤ limit
      · obtain ⟨s', hs', hle⟩ := hfar hin
        cases hs'
        exact hle
      · exact Nat.le_trans hlimit (Nat.le_of_lt (Nat.not_le.mp hin))
    refine ⟨before, after ++ [c], by simp, hlimit, hbefore, ?_⟩
    intro x hx
    rcases List.mem_append.mp hx with hx | hx
    · exact hafter x hx
    · rwa [List.mem_singleton.mp hx]

/-- The search goes on from the best candidate so far. -/
theorem firstNearest_nearest (candidates : List String) {best : Option (String × Nat)}
    (h : FirstNearest name limit seen (best.map (·.1)))
    (hbest : ∀ b, best = some b → b.2 = editDistance name b.1) :
    FirstNearest name limit (seen ++ candidates) (nearest name limit best candidates) := by
  induction candidates generalizing seen best with
  | nil => rwa [List.append_nil, nearest]
  | cons c rest ih =>
    rw [List.append_cons]
    unfold nearest
    dsimp only
    cases best with
    | none =>
      by_cases hin : editDistance name c ≤ limit
      · rw [if_pos (by simp [hin])]
        refine ih (h.replace hin (by simp)) ?_
        rintro b ⟨⟩
        rfl
      · rw [if_neg (by simp [hin])]
        exact ih (h.keep fun hle => absurd hle hin) hbest
    | some b =>
      have hdistance := hbest b rfl
      by_cases htaken : editDistance name c ≤ limit ∧ editDistance name c < b.2
      · rw [if_pos (by simpa using htaken)]
        refine ih (h.replace htaken.1 ?_) ?_
        · rintro s ⟨⟩
          exact hdistance ▸ htaken.2
        · rintro b ⟨⟩
          rfl
      · rw [if_neg (by simpa using htaken)]
        refine ih (h.keep fun hin => ⟨b.1, rfl, ?_⟩) hbest
        rw [← hdistance]
        exact Nat.not_lt.mp fun hlt => htaken ⟨hin, hlt⟩

/-- The search answers with the first of the nearest candidates, if there is one within reach. -/
theorem suggests_closest? (name : String) (candidates : List String) :
    Suggests name candidates (closest? name candidates) := by
  have hnone : FirstNearest name (allowedSlips name.utf8ByteSize) []
      ((none : Option (String × Nat)).map (·.1)) := by
    intro c hc
    cases hc
  have hfirst := firstNearest_nearest candidates hnone (by simp)
  -- what is near by the distance is so by every number of slips
  have hleast (c : String) : ∀ m, Slips m name.toList c.toList → editDistance name c ≤ m :=
    fun m h => (isLeast_editDistance name c).2 h
  unfold closest?
  cases hbest : nearest name (allowedSlips name.utf8ByteSize) none candidates with
  | none =>
    rw [hbest] at hfirst
    exact fun c hc m h => Nat.lt_of_lt_of_le (hfirst c hc) (hleast c m h)
  | some s =>
    rw [hbest] at hfirst
    obtain ⟨before, after, hcandidates, hlimit, hbefore, hafter⟩ := hfirst
    exact ⟨before, after, _, hcandidates, isLeast_editDistance name s, hlimit,
      fun c hc m h => Nat.lt_of_lt_of_le (hbefore c hc) (hleast c m h),
      fun c hc m h => Nat.le_trans (hafter c hc) (hleast c m h)⟩

end Text

/-! ## Lookups in a model -/

/-- Nothing is found under a name that is not among the names. -/
theorem find?_named_eq_none_iff {α : Type} {name : α → String} {xs : List α} {n : String} :
    xs.find? (fun x => name x == n) = none ↔ n ∉ xs.map name := by
  simp [List.find?_eq_none]

namespace Model

variable {m : Model}

/-- Every declared field is found. -/
theorem exists_column_of_mem {field : String} (h : field ∈ m.fieldNames) :
    ∃ column, m.column field = .ok column := by
  unfold column
  split
  next => exact ⟨field, rfl⟩
  next =>
    obtain ⟨f, hf, rfl⟩ := List.mem_map.mp h
    cases hfound : m.fields.find? (·.name == f.name) with
    | some g => exact ⟨g.columnName, rfl⟩
    | none => exact absurd (List.mem_map_of_mem hf) (find?_named_eq_none_iff.mp hfound)

/-- A field is refused where some are declared and it is not among them. -/
theorem column_eq_error_iff {field : String} {e : Error} :
    m.column field = .error e ↔ (m.fields ≠ [] ∧ field ≠ "*" ∧ field ∉ m.fieldNames) ∧
      e = .unknownField m.name field (Text.closest? field m.fieldNames) := by
  unfold Model.column
  rw [fieldNames, ← find?_named_eq_none_iff]
  by_cases hown : m.fields = [] ∨ field = "*"
  · rw [if_pos (by simpa using hown)]
    have hnot : ¬(m.fields ≠ [] ∧ field ≠ "*") := by
      rwa [← not_or, not_not]
    simp only [reduceCtorEq, false_iff]
    tauto
  · rw [if_neg (by simpa using hown)]
    cases m.fields.find? (·.name == field) with
    | some f => simp
    | none =>
      rw [not_or] at hown
      simp [hown, eq_comm]

/-- Every declared relation is found. -/
theorem exists_relation_of_mem {name : String} (h : name ∈ m.relationNames) :
    ∃ r, m.relation name = .ok r := by
  unfold relation
  obtain ⟨r, hr, rfl⟩ := List.mem_map.mp h
  cases hfound : m.relations.find? (·.name == r.name) with
  | some r' => exact ⟨r', rfl⟩
  | none => exact absurd (List.mem_map_of_mem hr) (find?_named_eq_none_iff.mp hfound)

/-- A relation that is not found is refused with a suggestion from the model's relations. -/
theorem relation_eq_error {name : String} {e : Error} (h : m.relation name = .error e) :
    e = .unknownRelation m.name name (Text.closest? name m.relationNames) := by
  unfold relation at h
  split at h <;> cases h
  rfl

end Model

/-! ## Lookups in a schema -/

namespace Schema

/-- The answer to a mistaken name: it suggests what it should of the names that are known, and what
it suggests is found and is another name. -/
def Helps {α : Type} (find : String → Except Error α) (known : List String) (name : String)
    (suggestion : Option String) : Prop :=
  Text.Suggests name known suggestion ∧
    ∀ s, suggestion = some s → s ≠ name ∧ ∃ a, find s = .ok a

/-- Where all known names are found, a name that is not found gets an answer that helps. -/
theorem helps_closest? {α : Type} {find : String → Except Error α} {known : List String}
    (hknown : ∀ s ∈ known, ∃ a, find s = .ok a) {name : String} {e : Error}
    (h : find name = .error e) : Helps find known name (Text.closest? name known) := by
  have hbest := Text.suggests_closest? name known
  refine ⟨hbest, fun s hs => ?_⟩
  rw [hs] at hbest
  obtain ⟨a, ha⟩ := hknown s hbest.mem
  refine ⟨?_, a, ha⟩
  rintro rfl
  rw [h] at ha
  cases ha

/-- Lookups in a schema, however it was reached. A model that is not known, for which its fields and
relations are not looked up, and a field or a relation that a known model does not have, are refused
by name, and the refusal suggests the first of the nearest names that are declared, if any is within
reach. To look the suggested name up instead is to find something, and it is not the name that was
mistaken. -/
theorem suggestions_help {added : List Model} {s : Schema} (h : Reached added s) :
    (∀ name e, s.model name = .error e →
      (∀ x, s.column name x = .error e ∧ s.relation name x = .error e) ∧
        ∃ suggestion, e = .unknownModel name suggestion ∧
          Helps s.model s.names name suggestion) ∧
      (∀ name m, s.model name = .ok m → ∀ field e, s.column name field = .error e →
        ∃ suggestion, e = .unknownField name field suggestion ∧
          Helps (s.column name) m.fieldNames field suggestion) ∧
      ∀ name m, s.model name = .ok m → ∀ relation e, s.relation name relation = .error e →
        ∃ suggestion, e = .unknownRelation name relation suggestion ∧
          Helps (s.relation name) m.relationNames relation suggestion := by
  have hstep := inStep_of_reached h
  have hname {name : String} {m : Model} (hm : s.model name = .ok m) : m.name = name := by
    rw [hstep.model_eq_ok_iff, latest?_eq_some_iff] at hm
    obtain ⟨-, -, -, hname, -⟩ := hm
    exact hname
  refine ⟨?_, ?_, ?_⟩
  · intro name e he
    obtain ⟨-, rfl⟩ := (hstep.model_eq_error_iff name e).mp he
    refine ⟨fun x => ⟨by rw [column, he]; rfl, by rw [Schema.relation, he]; rfl⟩, _, rfl,
      helps_closest? (fun n hn => ?_) he⟩
    -- a name that is listed was registered, so the index knows it
    cases hn' : s.model n with
    | ok m => exact ⟨m, rfl⟩
    | error e' =>
      rw [hstep.names_eq, List.mem_eraseDups] at hn
      exact absurd hn ((hstep.model_eq_error_iff n e').mp hn').1
  · intro name m hm field e he
    have hcolumn (f : String) : s.column name f = m.column f := by
      rw [column, hm]
      rfl
    have hcause := (Model.column_eq_error_iff.mp ((hcolumn field).symm.trans he)).2
    rw [hname hm] at hcause
    refine ⟨_, hcause, helps_closest? (fun f hf => ?_) he⟩
    rw [hcolumn]
    exact Model.exists_column_of_mem hf
  · intro name m hm relation e he
    have hrelation (r : String) : s.relation name r = m.relation r := by
      rw [Schema.relation, hm]
      rfl
    have hcause := Model.relation_eq_error ((hrelation relation).symm.trans he)
    rw [hname hm] at hcause
    refine ⟨_, hcause, helps_closest? (fun r hr => ?_) he⟩
    rw [hrelation]
    exact Model.exists_relation_of_mem hr

/-- Users who write posts. -/
def postsModels : List Model :=
  [{ name := "User", table := "users", fields := [{ name := "id" }, { name := "email" }]
     relations := [{ name := "posts", toModel := "Post", fromFields := ["id"]
                     toFields := ["author_id"], kind := .oneToMany }] },
   { name := "Post", table := "posts" }]

/-- Misspelled names of a model, a field and a relation, each led back to what was meant. -/
theorem suggestions_help_posts :
    let s := ofModels postsModels
    Reached postsModels s ∧
      (s.model "Usr" = .error (.unknownModel "Usr" (some "User")) ∧
        Helps s.model ["User", "Post"] "Usr" (some "User")) ∧
      (s.column "User" "emial" = .error (.unknownField "User" "emial" (some "email")) ∧
        Helps (s.column "User") ["id", "email"] "emial" (some "email")) ∧
      s.relation "User" "comments" = .error (.unknownRelation "User" "comments" none) ∧
        Helps (s.relation "User") ["posts"] "comments" none := by
  intro s
  have hreached : Reached postsModels s := .define postsModels
  obtain ⟨hmodel, hfield, hrelation⟩ := suggestions_help hreached
  have huser : ∃ m, s.model "User" = .ok m ∧ m.fieldNames = ["id", "email"] ∧
      m.relationNames = ["posts"] := ⟨_, rfl, rfl, rfl⟩
  obtain ⟨m, hm, hfields, hrelations⟩ := huser
  have hname : s.model "Usr" = .error (.unknownModel "Usr" (some "User")) := by decide
  have hemail : s.column "User" "emial" = .error (.unknownField "User" "emial" (some "email")) := by
    decide
  have hcomments : s.relation "User" "comments"
      = .error (.unknownRelation "User" "comments" none) := by decide
  refine ⟨hreached, ⟨hname, ?_⟩, ⟨hemail, ?_⟩, hcomments, ?_⟩
  · obtain ⟨-, suggestion, he, hhelps⟩ := hmodel "Usr" _ hname
    cases he
    exact hhelps
  · obtain ⟨suggestion, he, hhelps⟩ := hfield "User" m hm "emial" _ hemail
    cases he
    rwa [hfields] at hhelps
  · obtain ⟨suggestion, he, hhelps⟩ := hrelation "User" m hm "comments" _ hcomments
    cases he
    rwa [hrelations] at hhelps

end Schema

end SqlQuery
